/-
The isotonic fit: what the loop leaves, why nothing monotone is nearer to the
outcomes, and where the predictor is monotone between the bins.

# The loop

Every state of the loop has the entries of the list, in blocks that are pooled and
have no end within, with means that rise up to the index (`Pooling`). A turn keeps
that: a step forward extends the rise by one comparison, and a join takes two
neighbours in the wrong order, which is what pooled blocks need (`Pooling.join`).
-/
import Mathlib.Algebra.Order.Field.Basic
import MarketRegimeAlpha.ResearchValidation.Calibration

namespace MarketRegimeAlpha.ResearchValidation.Calibration

open Lib List

-- ==== the loop

/-- What holds of the blocks and the index at every turn. -/
structure Pooling (values : List (ℚ × Int)) (blocks : List (Block (ℚ × Int)))
    (index : Nat) : Prop where
  entries : Block.entriesOf blocks = values
  made : BlocksMade outcomeOf blocks
  rises : BlocksRise outcomeOf (blocks.take (index + 1))

theorem Pooling.start (values : List (ℚ × Int)) : Pooling values (values.map Block.single) 0 := by
  refine ⟨Block.entriesOf_singles values, ?_, ?_⟩
  · intro b hb
    obtain ⟨item, -, rfl⟩ := mem_map.mp hb
    exact ⟨Pooled.singleton outcomeOf item, Clasped.singleton outcomeOf item⟩
  · cases values with
    | nil => exact List.Pairwise.nil
    | cons item values => exact pairwise_singleton _ _

section Turn

variable {values : List (ℚ × Int)} {bs cs : List (Block (ℚ × Int))} {b c : Block (ℚ × Int)}
  (h : Pooling values (bs ++ b :: c :: cs) bs.length)

include h in
theorem Pooling.forward (hle : b.mean outcomeOf ≤ c.mean outcomeOf) :
    Pooling values (bs ++ b :: c :: cs) (bs.length + 1) := by
  have hrises := h.rises
  rw [take_length_add_append 1] at hrises
  refine ⟨h.entries, h.made, ?_⟩
  rw [Nat.add_assoc, take_length_add_append 2]
  obtain ⟨hbs, -, hcross⟩ := pairwise_append.mp hrises
  refine pairwise_append.mpr ⟨hbs, pairwise_pair.mpr hle, fun x hx y hy => ?_⟩
  have hxb := hcross x hx b mem_cons_self
  obtain rfl | hy := mem_cons.mp hy
  · exact hxb
  · rw [mem_singleton.mp hy]
    exact hxb.trans hle

include h in
theorem Pooling.join (hlt : c.mean outcomeOf < b.mean outcomeOf) :
    Pooling values (bs ++ b.join c :: cs) (bs.length - 1) := by
  obtain ⟨hpooledb, hclaspedb⟩ := h.made b (by simp)
  obtain ⟨hpooledc, hclaspedc⟩ := h.made c (by simp)
  refine ⟨?_, fun d hd => ?_, ?_⟩
  · rw [← h.entries]
    simp
  · obtain hd | hd := mem_append.mp hd
    · exact h.made d (mem_append_left _ hd)
    obtain rfl | hd := mem_cons.mp hd
    · exact ⟨hpooledb.append hpooledc b.filled c.filled hlt.le,
        hclaspedb.append hclaspedc b.filled c.filled hlt⟩
    · exact h.made d (by simp [hd])
  · cases bs with
    | nil => exact pairwise_singleton _ _
    | cons d bs =>
      -- up to the pair before, the blocks are those before the join
      have hrises := h.rises
      rw [take_length_add_append 1] at hrises
      rw [length_cons, Nat.add_sub_cancel, ← length_cons (a := d), take_left]
      exact (pairwise_append.mp hrises).1

end Turn

variable {index : Nat}

theorem split_at {α : Type _} {l : List α} (h : index + 1 < l.length) :
    l.take index ++ l[index] :: l[index + 1] :: l.drop (index + 2) = l
      ∧ (l.take index).length = index := by
  refine ⟨?_, by rw [length_take]; omega⟩
  rw [← drop_eq_getElem_cons h, ← drop_eq_getElem_cons (by omega), take_append_drop]

theorem pool_spec {values : List (ℚ × Int)} {blocks : List (Block (ℚ × Int))}
    (h : Pooling values blocks index) :
    Block.entriesOf (pool blocks index) = values ∧ BlocksMade outcomeOf (pool blocks index)
      ∧ BlocksRise outcomeOf (pool blocks index) := by
  fun_induction pool blocks index with
  | case1 blocks index hlt block next hle ih =>
    obtain ⟨hsplit, hlength⟩ := split_at hlt
    have hforward := @Pooling.forward values (blocks.take index)
      (blocks.drop (index + 2)) block next
    rw [hsplit, hlength] at hforward
    exact ih (hforward h hle)
  | case2 blocks index hlt block next hgt ih =>
    obtain ⟨hsplit, hlength⟩ := split_at hlt
    have hjoin := @Pooling.join values (blocks.take index) (blocks.drop (index + 2)) block next
    rw [hsplit, hlength] at hjoin
    exact ih (hjoin h (not_le.mp hgt))
  | case3 blocks index hge =>
    refine ⟨h.entries, h.made, ?_⟩
    have hrises := h.rises
    rwa [take_of_length_le (by omega)] at hrises

def blocksOf (values : List (ℚ × Int)) : List (Block (ℚ × Int)) := pool (values.map Block.single) 0

theorem isotonicBins_eq (values : List (ℚ × Int)) :
    isotonicBins values = (blocksOf values).map binOf := rfl

theorem blocksOf_spec (values : List (ℚ × Int)) :
    Block.entriesOf (blocksOf values) = values ∧ BlocksMade outcomeOf (blocksOf values)
      ∧ BlocksRise outcomeOf (blocksOf values) :=
  pool_spec (Pooling.start values)

/-- The bins are those of consecutive blocks with means that do not decrease, and
of all monotone sequences only the means of the blocks are nearest to the
outcomes. -/
theorem isotonic_least_squares (values : List (ℚ × Int)) :
    isotonicBins values = (blocksOf values).map binOf ∧ Block.entriesOf (blocksOf values) = values
      ∧ ((isotonicBins values).map (·.probability)).Pairwise (· ≤ ·)
      ∧ (fitted outcomeOf (blocksOf values)).length = values.length
      ∧ (fitted outcomeOf (blocksOf values)).Pairwise (· ≤ ·)
      ∧ ∀ gs : List ℚ, gs.length = values.length → gs.Pairwise (· ≤ ·) →
        squares (values.map outcomeOf) (fitted outcomeOf (blocksOf values))
            ≤ squares (values.map outcomeOf) gs
          ∧ (squares (values.map outcomeOf) gs
              ≤ squares (values.map outcomeOf) (fitted outcomeOf (blocksOf values)) →
            gs = fitted outcomeOf (blocksOf values)) := by
  obtain ⟨hentries, hmade, hrise⟩ := blocksOf_spec values
  refine ⟨rfl, hentries, ?_, ?_, fitted_monotone hrise, fun gs hlength hmonotone => ?_⟩
  · rw [isotonicBins_eq, map_map]
    exact pairwise_map.mpr hrise
  · rw [length_fitted, hentries]
  · have hnearest := fitted_nearest (fun b hb => (hmade b hb).1)
      (by rw [hentries, hlength]) hmonotone
    rwa [hentries] at hnearest

-- ==== the predictor

/-- The scores go up. -/
def Ascending (values : List (ℚ × Int)) : Prop := values.Pairwise fun p q => p.1 ≤ q.1

theorem ordered_ascending (observations : List CalibrationObservation) :
    Ascending (ordered observations) := by
  refine (sortBy_pairwise toLex _).imp fun {p q} h => ?_
  obtain h | ⟨h, -⟩ := Prod.Lex.toLex_le_toLex.mp h
  · exact h.le
  · exact h.le

/-- A score is between the first and the last of a block. -/
def Holds (b : Block (ℚ × Int)) (score : ℚ) : Prop := b.first.1 ≤ score ∧ score ≤ b.last.1

instance (b : Block (ℚ × Int)) (score : ℚ) : Decidable (Holds b score) :=
  inferInstanceAs (Decidable (_ ∧ _))

/-- The block whose mean the predictor answers with. -/
inductive Lookup (blocks : List (Block (ℚ × Int))) (score : ℚ) : Block (ℚ × Int) → Prop
  | inside (bs cs : List (Block (ℚ × Int))) (b : Block (ℚ × Int))
      (hsplit : blocks = bs ++ b :: cs) (hb : Holds b score)
      (hbs : ∀ c ∈ bs, ¬ Holds c score) : Lookup blocks score b
  | below (b : Block (ℚ × Int)) (rest : List (Block (ℚ × Int)))
      (hsplit : blocks = b :: rest) (hlow : score < b.first.1) : Lookup blocks score b
  | fallback (rest : List (Block (ℚ × Int))) (b : Block (ℚ × Int))
      (hsplit : blocks = rest ++ [b]) (hnone : ∀ c ∈ blocks, ¬ Holds c score)
      (habove : ∃ c ∈ blocks, c.first.1 ≤ score) : Lookup blocks score b

section Scores

variable {bs cs blocks : List (Block (ℚ × Int))} {b c : Block (ℚ × Int)} {item : ℚ × Int} {s t : ℚ}
  (h : Ascending (Block.entriesOf blocks))

include h in
theorem Ascending.of_block (hb : b ∈ blocks) : Ascending b.entries := by
  obtain ⟨bs, cs, rfl⟩ := append_of_mem hb
  rw [Block.entriesOf_append, Block.entriesOf_cons] at h
  exact (pairwise_append.mp (pairwise_append.mp h).2.1).1

include h in
theorem Ascending.first_le (hb : b ∈ blocks) (hitem : item ∈ b.entries) : b.first.1 ≤ item.1 := by
  have hentries := h.of_block hb
  have hcons : b.entries = b.first :: b.entries.tail := (cons_head_tail b.filled).symm
  rw [hcons] at hentries hitem
  obtain rfl | hitem := mem_cons.mp hitem
  · exact le_rfl
  · exact (pairwise_cons.mp hentries).1 item hitem

include h in
theorem Ascending.le_last (hb : b ∈ blocks) (hitem : item ∈ b.entries) : item.1 ≤ b.last.1 := by
  have hentries := h.of_block hb
  have hsnoc : b.entries = b.entries.dropLast ++ [b.last] :=
    (dropLast_append_getLast b.filled).symm
  rw [hsnoc] at hentries hitem
  obtain hitem | hitem := mem_append.mp hitem
  · exact (pairwise_append.mp hentries).2.2 item hitem _ mem_cons_self
  · rw [mem_singleton.mp hitem]

theorem Ascending.head_le (h : Ascending (Block.entriesOf (b :: cs)))
    (hitem : item ∈ Block.entriesOf (b :: cs)) : b.first.1 ≤ item.1 := by
  have hcons : Block.entriesOf (b :: cs) = b.first :: (b.entries.tail ++ Block.entriesOf cs) := by
    rw [Block.entriesOf_cons, ← cons_append]
    congr 1
    exact (cons_head_tail b.filled).symm
  rw [hcons] at hitem
  rw [hcons] at h
  obtain rfl | hitem := mem_cons.mp hitem
  · exact le_rfl
  · exact (pairwise_cons.mp h).1 item hitem

theorem Block.mem_entriesOf (hb : b ∈ blocks) (hitem : item ∈ b.entries) :
    item ∈ Block.entriesOf blocks :=
  mem_flatten_of_mem (mem_map_of_mem hb) hitem

theorem Ascending.before (h : Ascending (Block.entriesOf (bs ++ cs))) (hb : b ∈ bs)
    (hc : c ∈ cs) : b.last.1 ≤ c.first.1 := by
  rw [Block.entriesOf_append] at h
  exact (pairwise_append.mp h).2.2 b.last (Block.mem_entriesOf hb b.last_mem)
    c.first (Block.mem_entriesOf hc c.first_mem)

theorem find_bin (blocks : List (Block (ℚ × Int))) (score : ℚ) :
    (blocks.map binOf).find? (fun bin => decide (bin.low ≤ score ∧ score ≤ bin.high))
      = (blocks.find? fun b => decide (Holds b score)).map binOf := by
  rw [find?_map]
  rfl

theorem binPredict_inside (hb : Holds b s) (hbs : ∀ c ∈ bs, ¬ Holds c s) :
    binPredict s ((bs ++ b :: cs).map binOf) = .ok (b.mean outcomeOf) := by
  have hfind : (bs ++ b :: cs).find? (fun c => decide (Holds c s)) = some b :=
    find?_eq_some_iff_append.mpr ⟨decide_eq_true hb, bs, cs, rfl, fun c hc => by
      rw [Bool.not_eq_true', decide_eq_false_iff_not]
      exact hbs c hc⟩
  unfold binPredict
  rw [find_bin, hfind]
  rfl

theorem binPredict_outside {first last : Block (ℚ × Int)} (hnone : ∀ c ∈ blocks, ¬ Holds c s)
    (hfirst : blocks.head? = some first) (hlast : blocks.getLast? = some last) :
    binPredict s (blocks.map binOf) = .ok (if s < first.first.1
      then first.mean outcomeOf else last.mean outcomeOf) := by
  have hfind : blocks.find? (fun c => decide (Holds c s)) = none :=
    find?_eq_none.mpr fun c hc h => hnone c hc (of_decide_eq_true h)
  unfold binPredict
  rw [find_bin, hfind, head?_map, getLast?_map, hfirst, hlast]
  exact (apply_ite Except.ok (s < first.first.1) _ _).symm

theorem lookup (hne : blocks ≠ []) (score : ℚ) : ∃ b, Lookup blocks score b
      ∧ binPredict score (blocks.map binOf) = .ok (b.mean outcomeOf) := by
  cases hblock : blocks.find? fun b => decide (Holds b score) with
  | some b =>
    obtain ⟨hb, bs, cs, rfl, hbs⟩ := find?_eq_some_iff_append.mp hblock
    have hnone : ∀ c ∈ bs, ¬ Holds c score := by
      intro c hc
      have := hbs c hc
      rwa [Bool.not_eq_true', decide_eq_false_iff_not] at this
    exact ⟨b, .inside bs cs b rfl (of_decide_eq_true hb) hnone,
      binPredict_inside (of_decide_eq_true hb) hnone⟩
  | none =>
    have hnone : ∀ c ∈ blocks, ¬ Holds c score := fun c hc hholds =>
      find?_eq_none.mp hblock c hc (decide_eq_true hholds)
    have houtside := binPredict_outside hnone (head?_eq_some_head hne)
      (getLast?_eq_some_getLast hne)
    rw [houtside]
    by_cases hlow : score < (blocks.head hne).first.1
    · exact ⟨_, .below _ _ (cons_head_tail hne).symm hlow, by rw [if_pos hlow]⟩
    · exact ⟨_, .fallback _ _ (dropLast_append_getLast hne).symm hnone
        ⟨_, head_mem hne, not_lt.mp hlow⟩, by rw [if_neg hlow]⟩

/-- After every gap of the scores the blocks have the level of the first of
them. -/
def LevelAfterGaps (blocks : List (Block (ℚ × Int))) : Prop :=
  ∀ bs c cs, blocks = bs ++ c :: cs → bs ≠ [] →
    (∀ x ∈ Block.entriesOf bs, ∀ y ∈ Block.entriesOf (c :: cs), x.1 < y.1) →
    ∀ d ∈ c :: cs, d.mean outcomeOf ≤ c.mean outcomeOf

theorem mean_le_of_rise (h : BlocksRise outcomeOf (bs ++ b :: cs))
    (hc : c ∈ b :: cs) : b.mean outcomeOf ≤ c.mean outcomeOf := by
  obtain rfl | hc := mem_cons.mp hc
  · exact le_rfl
  · exact (pairwise_cons.mp (pairwise_append.mp h).2.1).1 c hc

theorem Lookup.mem (h : Lookup blocks s b) : b ∈ blocks := by
  cases h with
  | inside bs cs _ hsplit => rw [hsplit]; simp
  | below _ rest hsplit => rw [hsplit]; simp
  | fallback rest _ hsplit => rw [hsplit]; simp

/-- A score in a gap, with the block after the gap. -/
theorem exists_gap (hscores : Ascending (Block.entriesOf blocks))
    (hnone : ∀ c ∈ blocks, ¬ Holds c s) (habove : ∃ c ∈ blocks, c.first.1 ≤ s)
    (hc : c ∈ blocks) (hlt : s < c.first.1) :
    ∃ bs e cs, blocks = bs ++ e :: cs ∧ bs ≠ [] ∧ c ∈ e :: cs
      ∧ ∀ x ∈ Block.entriesOf bs, ∀ y ∈ Block.entriesOf (e :: cs), x.1 < y.1 := by
  cases hfind : blocks.find? fun e => decide (s < e.first.1) with
  | none => exact absurd (decide_eq_true hlt) (find?_eq_none.mp hfind c hc)
  | some e =>
    obtain ⟨he, bs, cs, rfl, hbs⟩ := find?_eq_some_iff_append.mp hfind
    have hfirst : ∀ d ∈ bs, d.first.1 ≤ s := by
      intro d hd
      have := hbs d hd
      rw [Bool.not_eq_true', decide_eq_false_iff_not] at this
      exact not_lt.mp this
    have hlow : ∀ x ∈ Block.entriesOf bs, x.1 < s := by
      intro x hx
      obtain ⟨entries, hentries, hx⟩ := mem_flatten.mp hx
      obtain ⟨d, hd, rfl⟩ := mem_map.mp hentries
      have hmem : d ∈ bs ++ e :: cs := mem_append_left _ hd
      have hlast : d.last.1 < s := by
        by_contra hge
        exact hnone d hmem ⟨hfirst d hd, not_lt.mp hge⟩
      exact (hscores.le_last hmem hx).trans_lt hlast
    have hafter : Ascending (Block.entriesOf (e :: cs)) := by
      rw [Block.entriesOf_append] at hscores
      exact (pairwise_append.mp hscores).2.1
    have hhigh : ∀ y ∈ Block.entriesOf (e :: cs), s < y.1 := fun y hy =>
      (of_decide_eq_true he).trans_le (hafter.head_le hy)
    refine ⟨bs, e, cs, rfl, ?_, ?_, fun x hx y hy => (hlow x hx).trans (hhigh y hy)⟩
    · rintro rfl
      obtain ⟨d, hd, hds⟩ := habove
      exact absurd (hhigh _ (Block.mem_entriesOf hd d.first_mem)) (not_lt.mpr hds)
    · obtain hc | hc := mem_append.mp hc
      · exact absurd (hfirst c hc) (not_le.mpr hlt)
      · exact hc

theorem mem_of_last {rest : List (Block (ℚ × Int))} (h : bs ++ b :: cs = rest ++ [c]) :
    c ∈ b :: cs := by
  have hlast := congrArg List.getLast? h
  rw [getLast?_concat, getLast?_append_of_ne_nil _ (cons_ne_nil b cs)] at hlast
  exact mem_of_getLast? hlast

/-- The predictor on two scores. -/
theorem Lookup.mean_le (hscores : Ascending (Block.entriesOf blocks))
    (hrise : BlocksRise outcomeOf blocks) (hlevel : LevelAfterGaps blocks) (hst : s ≤ t)
    (hb : Lookup blocks s b) (hc : Lookup blocks t c) :
    b.mean outcomeOf ≤ c.mean outcomeOf := by
  have hcmem := hc.mem
  cases hb with
  | below _ rest hsplit hlow =>
    rw [hsplit] at hcmem hrise
    rw [← nil_append (b :: rest)] at hrise
    exact mean_le_of_rise hrise hcmem
  | inside bs cs _ hsplit hholds hbs =>
    have hafter : c ∈ b :: cs → b.mean outcomeOf ≤ c.mean outcomeOf := by
      rw [hsplit] at hrise
      exact mean_le_of_rise hrise
    cases hc with
    | inside bs' cs' _ hsplit' hholds' hbs' =>
      rw [hsplit] at hcmem hscores
      obtain hcbs | hcs := mem_append.mp hcmem
      · -- a block before `b` that reaches `t` ends at `s`
        have hcb := hscores.before hcbs mem_cons_self
        have hfirst := hscores.first_le hcmem c.last_mem
        have hs : c.last.1 = s := le_antisymm (hcb.trans hholds.1) (hst.trans hholds'.2)
        exact absurd ⟨hfirst.trans hs.le, hs.ge⟩ (hbs c hcbs)
      · exact hafter hcs
    | below _ rest hsplit' hlow =>
      have hmem : b ∈ c :: rest := by
        rw [← hsplit', hsplit]
        simp
      rw [hsplit'] at hscores
      have := hscores.head_le (Block.mem_entriesOf hmem b.first_mem)
      exact absurd ((this.trans hholds.1).trans hst) (not_le.mpr hlow)
    | fallback rest _ hsplit' hnone habove => exact hafter (mem_of_last (hsplit.symm.trans hsplit'))
  | fallback rest _ hsplit hnone habove =>
    cases hc with
    | inside bs' cs' _ hsplit' hholds' hbs' =>
      have hlt : s < c.first.1 := by
        by_contra hge
        exact hnone c hcmem ⟨not_lt.mp hge, hst.trans hholds'.2⟩
      obtain ⟨bs, e, cs, hgap, hne, hce, hstrict⟩ := exists_gap hscores hnone habove hcmem hlt
      have hbe : b ∈ e :: cs := mem_of_last (hgap.symm.trans hsplit)
      rw [hgap] at hrise
      exact (hlevel bs e cs hgap hne hstrict b hbe).trans (mean_le_of_rise hrise hce)
    | below _ rest' hsplit' hlow =>
      obtain ⟨d, hd, hds⟩ := habove
      rw [hsplit'] at hscores hd
      have := hscores.head_le (Block.mem_entriesOf hd d.first_mem)
      exact absurd ((this.trans hds).trans hst) (not_le.mpr hlow)
    | fallback rest' _ hsplit' _ _ =>
      have hlast := append_inj_right' (hsplit.symm.trans hsplit') rfl
      rw [singleton_inj.mp hlast]

end Scores

-- ==== the condition

/-- Whether the outcomes after a gap of the scores stay on one level: where a block
ends at a gap, no prefix of what follows lies below the mean of what follows. -/
def FlatAfterGaps (values : List (ℚ × Int)) : Prop :=
  ∀ front back, values = front ++ back → front ≠ [] → back ≠ [] →
    (∀ x ∈ front, ∀ y ∈ back, x.1 < y.1) → EndsBetween outcomeOf front back →
    Pooled outcomeOf back

section Condition

variable {values : List (ℚ × Int)} {b : Block (ℚ × Int)}

theorem Block.entriesOf_ne_nil {cs : List (Block (ℚ × Int))} : Block.entriesOf (b :: cs) ≠ [] :=
  append_ne_nil_of_left_ne_nil b.filled _

theorem entriesOf_eq_nil {bs : List (Block (ℚ × Int))} (h : Block.entriesOf bs = []) : bs = [] := by
  cases bs with
  | nil => rfl
  | cons b bs => exact absurd h Block.entriesOf_ne_nil

theorem levelAfterGaps_iff (values : List (ℚ × Int)) :
    LevelAfterGaps (blocksOf values) ↔ FlatAfterGaps values := by
  obtain ⟨hentries, hmade, hrise⟩ := blocksOf_spec values
  constructor
  case mp =>
    intro hlevel front back hvalues hfront hback hstrict hends
    obtain ⟨bs, cs, hblocks, rfl, rfl⟩ := (hmade.ends_iff hrise (hentries.trans hvalues)).mp hends
    cases cs with
    | nil => exact absurd rfl hback
    | cons c cs =>
      have hbs : bs ≠ [] := by
        rintro rfl
        exact hfront rfl
      have hbelow := hlevel bs c cs hblocks hbs hstrict
      rw [hblocks] at hrise
      refine Pooled.of_level (m := c.mean outcomeOf) (fun b hb => ?_) fun b hb =>
        le_antisymm (hbelow b hb) (mean_le_of_rise hrise hb)
      exact (hmade b (hblocks ▸ mem_append_right bs hb)).1
  case mpr =>
    intro hflat bs c cs hblocks hbs hstrict d hd
    have hvalues : values = Block.entriesOf bs ++ Block.entriesOf (c :: cs) := by
      rw [← hentries, hblocks, Block.entriesOf_append]
    have hends : EndsBetween outcomeOf (Block.entriesOf bs) (Block.entriesOf (c :: cs)) :=
      (hmade.ends_iff hrise (hentries.trans hvalues)).mpr ⟨bs, c :: cs, hblocks, rfl, rfl⟩
    have hpooled := hflat _ _ hvalues (fun h => hbs (entriesOf_eq_nil h))
      Block.entriesOf_ne_nil hstrict hends
    rw [hblocks] at hrise
    have hafter : BlocksRise outcomeOf (c :: cs) := (pairwise_append.mp hrise).2.1
    exact hafter.mean_le_first hpooled hd

/-- If the predictor is monotone, the blocks after a gap have one level: in the gap
it has that of the last, and at the score after the gap that of the first. -/
theorem levelAfterGaps_of_monotone {blocks : List (Block (ℚ × Int))}
    (hscores : Ascending (Block.entriesOf blocks)) (hrise : BlocksRise outcomeOf blocks)
    (hmonotone : ∀ s t u v, s ≤ t → binPredict s (blocks.map binOf) = .ok u →
      binPredict t (blocks.map binOf) = .ok v → u ≤ v) : LevelAfterGaps blocks := by
  rintro bs c cs rfl hbs hstrict d hd
  obtain ⟨front, e, rfl⟩ : ∃ front e, bs = front ++ [e] :=
    ⟨_, _, (dropLast_append_getLast hbs).symm⟩
  have hgap : e.last.1 < c.first.1 :=
    hstrict _ (Block.mem_entriesOf (by simp) e.last_mem) _
      (Block.mem_entriesOf mem_cons_self c.first_mem)
  obtain ⟨s, hes, hsc⟩ := exists_between hgap
  -- the scores before the gap are below `s`, those after it above
  have hlow : ∀ b ∈ front ++ [e], b.last.1 ≤ e.last.1 := by
    intro b hb
    obtain hb | hb := mem_append.mp hb
    · have hbefore : Ascending (Block.entriesOf (front ++ [e])) := by
        rw [Block.entriesOf_append] at hscores
        exact (pairwise_append.mp hscores).1
      exact (hbefore.before hb mem_cons_self).trans (hbefore.first_le (by simp) e.last_mem)
    · rw [mem_singleton.mp hb]
  have hafter : Ascending (Block.entriesOf (c :: cs)) := by
    rw [Block.entriesOf_append] at hscores
    exact (pairwise_append.mp hscores).2.1
  have hhigh : ∀ b ∈ c :: cs, c.first.1 ≤ b.first.1 := fun b hb =>
    hafter.head_le (Block.mem_entriesOf hb b.first_mem)
  have hnone : ∀ b ∈ (front ++ [e]) ++ c :: cs, ¬ Holds b s := by
    intro b hb hholds
    obtain hb | hb := mem_append.mp hb
    · exact absurd (hholds.2.trans (hlow b hb)) (not_le.mpr hes)
    · exact absurd ((hhigh b hb).trans hholds.1) (not_le.mpr hsc)
  obtain ⟨f, tail, hf⟩ := exists_cons_of_ne_nil hbs
  have habove : ¬ s < f.first.1 := by
    have hmem : f ∈ front ++ [e] := by rw [hf]; exact mem_cons_self
    have := hscores.first_le (mem_append_left _ hmem) f.last_mem
    exact not_lt.mpr ((this.trans (hlow f hmem)).trans hes.le)
  obtain ⟨init, last, hlast⟩ : ∃ init last, c :: cs = init ++ [last] :=
    ⟨_, _, (dropLast_append_getLast (cons_ne_nil c cs)).symm⟩
  have hin : binPredict s (((front ++ [e]) ++ c :: cs).map binOf) = .ok (last.mean outcomeOf) := by
    have hfirst : ((front ++ [e]) ++ c :: cs).head? = some f := by rw [hf]; rfl
    have hlast : ((front ++ [e]) ++ c :: cs).getLast? = some last := by
      rw [hlast, ← append_assoc, getLast?_concat]
    rw [binPredict_outside hnone hfirst hlast, if_neg habove]
  have hat : binPredict c.first.1 (((front ++ [e]) ++ c :: cs).map binOf)
      = .ok (c.mean outcomeOf) := by
    refine binPredict_inside ⟨le_rfl, hafter.first_le mem_cons_self c.last_mem⟩ ?_
    exact fun b hb hholds => absurd (hholds.2.trans (hlow b hb)) (not_le.mpr hgap)
  have hle := hmonotone s c.first.1 _ _ hsc.le hin hat
  have hrises : BlocksRise outcomeOf (init ++ [last]) := by
    rw [← hlast]
    exact (pairwise_append.mp hrise).2.1
  rw [hlast] at hd
  obtain hd | hd := mem_append.mp hd
  · exact ((pairwise_append.mp hrises).2.2 d hd last mem_cons_self).trans hle
  · rwa [mem_singleton.mp hd]

theorem mean_unit (h : ∀ item ∈ b.entries, item.2 = 0 ∨ item.2 = 1) :
    0 ≤ b.mean outcomeOf ∧ b.mean outcomeOf ≤ 1 := by
  have hunit : ∀ item ∈ b.entries, 0 ≤ outcomeOf item ∧ outcomeOf item ≤ 1 := by
    intro item hitem
    unfold outcomeOf
    obtain h | h := h item hitem
    · rw [h]; norm_num
    · rw [h]; norm_num
  constructor
  · rw [Block.mean, le_meanOf_iff b.filled, zero_mul]
    refine List.sum_nonneg fun y hy => ?_
    obtain ⟨item, hitem, rfl⟩ := mem_map.mp hy
    exact (hunit item hitem).1
  · rw [Block.mean, meanOf_le_iff b.filled, one_mul]
    have := sum_le_card_nsmul (b.entries.map outcomeOf) 1 fun y hy => by
      obtain ⟨item, hitem, rfl⟩ := mem_map.mp hy
      exact (hunit item hitem).2
    rwa [length_map, nsmul_one] at this

theorem ordered_binary (observations : List CalibrationObservation) :
    ∀ item ∈ ordered observations, item.2 = 0 ∨ item.2 = 1 := by
  intro item hitem
  obtain ⟨observation, -, rfl⟩ := mem_map.mp ((sortBy_perm _ _).subset hitem)
  exact observation.binary

end Condition

/-- Where the fit has an observation, its predictor answers every score with a
probability, and the answers are monotone exactly if the outcomes stay on one level
after every gap. -/
theorem isotonic_predictor (platform : Platform) (protocol : CalibrationProtocol)
    (observations : List CalibrationObservation) (hmethod : protocol.method = .isotonic)
    (hne : observations ≠ []) :
    ∃ parameters predict, fitMethod platform protocol observations = .ok (parameters, predict)
        ∧ (((∀ s, ∃ u, predict s = .ok u ∧ 0 ≤ u ∧ u ≤ 1)
            ∧ ∀ s t u v, s ≤ t → predict s = .ok u → predict t = .ok v → u ≤ v)
          ↔ FlatAfterGaps (ordered observations)) := by
  have hfit : fitMethod platform protocol observations
      = .ok (.bins (isotonicBins (ordered observations)),
        fun value => binPredict value (isotonicBins (ordered observations))) := by
    unfold fitMethod
    rw [hmethod]
    rfl
  refine ⟨_, _, hfit, ?_⟩
  rw [isotonicBins_eq, ← levelAfterGaps_iff]
  obtain ⟨hentries, -, hrise⟩ := blocksOf_spec (ordered observations)
  have hscores : Ascending (Block.entriesOf (blocksOf (ordered observations))) := by
    rw [hentries]
    exact ordered_ascending observations
  have hblocks : blocksOf (ordered observations) ≠ [] := by
    intro hnil
    rw [hnil] at hentries
    have hlength := (sortBy_perm toLex
      (observations.map fun item => (item.score, item.outcome))).length_eq
    rw [← ordered, ← hentries, length_map] at hlength
    exact hne (length_eq_zero_iff.mp hlength.symm)
  constructor
  case mp => exact fun h => levelAfterGaps_of_monotone hscores hrise h.2
  case mpr =>
    refine fun hlevel => ⟨fun s => ?_, fun s t u v hst hu hv => ?_⟩
    · obtain ⟨b, hb, hpredict⟩ := lookup hblocks s
      refine ⟨_, hpredict, mean_unit fun item hitem => ?_⟩
      apply ordered_binary observations
      rw [← hentries]
      exact Block.mem_entriesOf hb.mem hitem
    · obtain ⟨b, hb, hpredict⟩ := lookup hblocks s
      obtain ⟨c, hc, hpredict'⟩ := lookup hblocks t
      rw [Except.ok.inj (hu.symm.trans hpredict), Except.ok.inj (hv.symm.trans hpredict')]
      exact hb.mean_le hscores hrise hlevel hst hc

-- ==== a failing fit

theorem isotonicBins_alternating : isotonicBins [(0, 0), (1, 1), (2, 0), (3, 1)]
    = [⟨0, 0, 0⟩, ⟨1, 2, 1 / 2⟩, ⟨3, 3, 1⟩] := by
  have hdown : ¬ (1 : ℚ) ≤ 0 := not_le.mpr one_pos
  have hup : (2⁻¹ : ℚ) ≤ 1 := by norm_num
  simp [isotonicBins, pool, Block.mean, meanOf, Block.single, Block.join, outcomeOf,
    binOf, Block.first, Block.last, hdown, hup]

section Sample

private def observed (id : String) (score : ℚ) (outcome : Int)
    (binary : outcome = 0 ∨ outcome = 1) : CalibrationObservation :=
  ⟨id, score, outcome, .fit, binary⟩

private theorem zero_binary : (0 : Int) = 0 ∨ (0 : Int) = 1 := .inl rfl

/-- Four observations with outcomes that go up and down. -/
private def alternating : List CalibrationObservation :=
  [observed "a" 0 0 zero_binary, observed "b" 1 1 (.inr rfl),
    observed "c" 2 0 zero_binary, observed "d" 3 1 (.inr rfl)]

private def isotonicProtocol : CalibrationProtocol := ⟨.isotonic, 10, 4, 500, 1 / 20, by norm_num⟩

theorem ordered_alternating : ordered alternating = [(0, 0), (1, 1), (2, 0), (3, 1)] := by
  decide +kernel

/-- Between the first two bins the predictor answers with the level of the last. -/
theorem isotonic_predictor_not_monotone : ¬ ∀ (platform : Platform) (protocol : CalibrationProtocol)
      (observations : List CalibrationObservation), protocol.method = .isotonic →
      observations ≠ [] → ∃ parameters predict,
        fitMethod platform protocol observations = .ok (parameters, predict)
          ∧ ∀ s t u v, s ≤ t → predict s = .ok u → predict t = .ok v → u ≤ v := by
  intro hall
  obtain ⟨parameters, predict, hfit, hmonotone⟩ :=
    hall ⟨id, id⟩ isotonicProtocol alternating rfl (cons_ne_nil _ _)
  have hpredict : predict = fun value => binPredict value
      [⟨0, 0, 0⟩, ⟨1, 2, 1 / 2⟩, ⟨3, 3, 1⟩] := by
    rw [← isotonicBins_alternating, ← ordered_alternating]
    exact (congrArg Prod.snd (Except.ok.inj hfit)).symm
  have hgap : predict (1 / 2) = .ok 1 := by
    rw [hpredict]
    decide +kernel
  have hfitted : predict 1 = .ok (1 / 2) := by
    rw [hpredict]
    decide +kernel
  have := hmonotone (1 / 2) 1 1 (1 / 2) (by norm_num) hgap hfitted
  norm_num at this

theorem isotonic_predictor_alternating :
    isotonicProtocol.method = .isotonic ∧ alternating ≠ [] ∧ ∃ parameters predict,
        fitMethod ⟨id, id⟩ isotonicProtocol alternating = .ok (parameters, predict)
          ∧ (((∀ s, ∃ u, predict s = .ok u ∧ 0 ≤ u ∧ u ≤ 1)
              ∧ ∀ s t u v, s ≤ t → predict s = .ok u → predict t = .ok v → u ≤ v)
            ↔ FlatAfterGaps (ordered alternating)) :=
  ⟨rfl, cons_ne_nil _ _, isotonic_predictor ⟨id, id⟩ isotonicProtocol alternating rfl
    (cons_ne_nil _ _)⟩

end Sample

end MarketRegimeAlpha.ResearchValidation.Calibration
