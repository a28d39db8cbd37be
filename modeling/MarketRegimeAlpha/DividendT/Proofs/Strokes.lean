/-
The fractals alternate, and the strokes between the accepted ones are well
formed.

# The zigzag

Between two fractals the bars only rise or only fall, so a bottom is
followed by a top that is not below it, and the other way round (`Zig`).
`Follows` is what the loop over the bars keeps of the last fractal.
-/
import MarketRegimeAlpha.DividendT.Proofs.Inclusions

namespace MarketRegimeAlpha.DividendT

open Lib List

variable {rounding : Rounding} {start price later : ℚ} {data : List Row}
  {previous current following : Row} {a b : FractalType}

-- ==== vocabulary

/-- A fractal and the next one: of the other type, and not on the wrong side
of it. -/
structure Zig (fractal following : ChanFractal) : Prop where
  index_lt : fractal.index < following.index
  types_ne : fractal.fractalType ≠ following.fractalType
  above : fractal.fractalType = .bottom → fractal.price ≤ following.price
  below : fractal.fractalType = .top → following.price ≤ fractal.price

/-- Since the last fractal the bars go one way, up to `current` at
`index`. -/
structure Follows (rounding : Rounding) (fractal : ChanFractal)
    (previous current : Row) (index : Nat) : Prop where
  index_lt : fractal.index < index
  rises : fractal.fractalType = .bottom →
    Rises previous current ∧ fractal.price ≤ rounding.price current.low
  falls : fractal.fractalType = .top →
    Rises current previous ∧ rounding.price current.high ≤ fractal.price

-- ==== two types

theorem bottom_iff_of_ne (h : a ≠ b) : a = .bottom ↔ b = .top := by
  cases a <;> cases b <;> simp at h ⊢

theorem top_iff_of_ne (h : a ≠ b) : a = .top ↔ b = .bottom := by
  cases a <;> cases b <;> simp at h ⊢

theorem type_eq_of_ne {a b c : FractalType} (h : a ≠ b) (h' : c ≠ b) : a = c := by
  cases a <;> cases b <;> cases c <;> simp at h h' ⊢

-- ==== the fractals

theorem isTop_iff : isTop previous current following = true ↔
      Rises previous current ∧ Rises following current := by
  simp only [isTop, Rises, Bool.and_eq_true, decide_eq_true_eq]
  tauto

theorem isBottom_iff : isBottom previous current following = true ↔
      Rises current previous ∧ Rises current following := by
  simp only [isBottom, Rises, Bool.and_eq_true, decide_eq_true_eq]
  tauto

/-- The fractals after one that the bars have followed, with that one in
front. -/
theorem isChain_cons_fractalsFrom {fractal : ChanFractal} {index : Nat}
    {previous current : Row} {rest : List Row}
    (hsteps : (previous :: current :: rest).IsChain Steps)
    (hordered : ∀ row ∈ current :: rest, row.Ordered)
    (hfollows : Follows rounding fractal previous current index) :
    (fractal :: fractalsFrom rounding index (previous :: current :: rest)).IsChain Zig := by
  induction rest generalizing fractal index previous current with
  | nil =>
    exact isChain_singleton _
  | cons following rest ih =>
    have hsteps' := (isChain_cons_cons.mp hsteps).2
    have hstep : Steps current following := (isChain_cons_cons.mp hsteps').1
    obtain ⟨hcurrent, hordered'⟩ := forall_mem_cons.mp hordered
    have hlt := hfollows.index_lt
    unfold fractalsFrom
    cases htype : fractal.fractalType with
    | bottom =>
      obtain ⟨hrises, hprice⟩ := hfollows.rises htype
      have hbottom : ¬ isBottom previous current following :=
        fun h => hrises.asymm (isBottom_iff.mp h).1
      by_cases htop : isTop previous current following
      · -- The rise ends here.
        rw [if_pos htop]
        refine isChain_cons_cons.mpr ⟨?_, ih hsteps' hordered' ?_⟩
        · constructor
          case index_lt => exact hlt
          case types_ne => rw [htype]; exact nofun
          case above =>
            intro _
            exact hprice.trans (rounding.price_mono hcurrent)
          case below => rw [htype]; exact nofun
        · constructor
          case index_lt => exact Nat.lt_succ_self _
          case rises => exact nofun
          case falls =>
            intro _
            obtain ⟨_, hfalls⟩ := isTop_iff.mp htop
            exact ⟨hfalls, rounding.price_mono hfalls.1.le⟩
      · -- It goes on.
        rw [if_neg htop, if_neg hbottom]
        have hrises' : Rises current following := by
          refine hstep.resolve_right fun h => htop ?_
          exact isTop_iff.mpr ⟨hrises, h⟩
        refine ih hsteps' hordered' ?_
        constructor
        case index_lt => exact hlt.trans (Nat.lt_succ_self _)
        case rises =>
          intro _
          exact ⟨hrises', hprice.trans (rounding.price_mono hrises'.2.le)⟩
        case falls => rw [htype]; exact nofun
    | top =>
      obtain ⟨hfalls, hprice⟩ := hfollows.falls htype
      have htop : ¬ isTop previous current following := fun h => hfalls.asymm (isTop_iff.mp h).1
      rw [if_neg htop]
      by_cases hbottom : isBottom previous current following
      · rw [if_pos hbottom]
        refine isChain_cons_cons.mpr ⟨?_, ih hsteps' hordered' ?_⟩
        · constructor
          case index_lt => exact hlt
          case types_ne => rw [htype]; exact nofun
          case above => rw [htype]; exact nofun
          case below =>
            intro _
            exact le_trans (rounding.price_mono hcurrent) hprice
        · constructor
          case index_lt => exact Nat.lt_succ_self _
          case rises =>
            intro _
            obtain ⟨_, hrises⟩ := isBottom_iff.mp hbottom
            exact ⟨hrises, rounding.price_mono hrises.2.le⟩
          case falls => exact nofun
      · rw [if_neg hbottom]
        have hfalls' : Rises following current := by
          refine hstep.resolve_left fun h => hbottom ?_
          exact isBottom_iff.mpr ⟨hfalls, h⟩
        refine ih hsteps' hordered' ?_
        constructor
        case index_lt => exact hlt.trans (Nat.lt_succ_self _)
        case rises => rw [htype]; exact nofun
        case falls =>
          intro _
          exact ⟨hfalls', (rounding.price_mono hfalls'.1.le).trans hprice⟩

theorem exists_follows (rounding : Rounding) {previous current : Row} (h : Steps previous current) :
    ∃ fractal, Follows rounding fractal previous current 1 := by
  cases h with
  | inl hrises =>
    refine ⟨⟨0, 0, .bottom, rounding.price current.low, 0, 0⟩, ?_⟩
    exact ⟨Nat.zero_lt_one, fun _ => ⟨hrises, le_rfl⟩, nofun⟩
  | inr hfalls =>
    refine ⟨⟨0, 0, .top, rounding.price current.high, 0, 0⟩, ?_⟩
    exact ⟨Nat.zero_lt_one, nofun, fun _ => ⟨hfalls, le_rfl⟩⟩

theorem isChain_fractalsFrom (hsteps : data.IsChain Steps) (hordered : ∀ row ∈ data, row.Ordered) :
    (fractalsFrom rounding 1 data).IsChain Zig := by
  match data with
  | [] =>
    exact isChain_nil
  | [_] =>
    exact isChain_nil
  | previous :: current :: rest =>
    obtain ⟨fractal, hfollows⟩ := exists_follows rounding (isChain_cons_cons.mp hsteps).1
    exact (isChain_cons_fractalsFrom hsteps (forall_mem_cons.mp hordered).2 hfollows).tail

theorem findFractals_eq_ok {fractals : List ChanFractal}
    (h : findFractals rounding data = .ok fractals) :
    fractals = fractalsFrom rounding 1 data := by
  obtain ⟨_, _, h⟩ := bind_ok.mp h
  exact (pure_ok.mp h).symm

-- ==== accepted pairs

/-- What a stroke between two fractals asks of them. -/
structure Good (rounding : Rounding) (minKlineGap : Int) (minPriceChange : ℚ)
    (first last : ChanFractal) : Prop where
  types_ne : first.fractalType ≠ last.fractalType
  rises : first.fractalType = .bottom → first.price < last.price
  falls : first.fractalType = .top → last.price < first.price
  gap : minKlineGap ≤ (last.index : Int) - first.index
  positive : 0 < first.price
  change : minPriceChange ≤ priceChange rounding first.price last.price

/-- The later fractal of the type that is at least as extreme. -/
structure Beyond (fractal later : ChanFractal) : Prop where
  sameType : later.fractalType = fractal.fractalType
  index_le : fractal.index ≤ later.index
  above : fractal.fractalType = .top → fractal.price ≤ later.price
  below : fractal.fractalType = .bottom → later.price ≤ fractal.price

theorem Beyond.refl (fractal : ChanFractal) : Beyond fractal fractal :=
  ⟨rfl, le_rfl, fun _ => le_rfl, fun _ => le_rfl⟩

theorem Beyond.trans {fractal later last : ChanFractal}
    (h : Beyond fractal later) (h' : Beyond later last) :
    Beyond fractal last := by
  have htype := h.sameType
  constructor
  case sameType => exact h'.sameType.trans htype
  case index_le => exact h.index_le.trans h'.index_le
  case above =>
    intro htop
    exact (h.above htop).trans (h'.above (htype.trans htop))
  case below =>
    intro hbottom
    exact (h'.below (htype.trans hbottom)).trans (h.below hbottom)

/-- The last of the fractals seen is not more extreme than
`accepted[-1]`. -/
structure NotBeyond (current last : ChanFractal) : Prop where
  index_le : current.index ≤ last.index
  above : last.fractalType = current.fractalType →
    current.fractalType = .bottom → current.price ≤ last.price
  below : last.fractalType = current.fractalType →
    current.fractalType = .top → last.price ≤ current.price

theorem NotBeyond.refl (fractal : ChanFractal) : NotBeyond fractal fractal :=
  ⟨le_rfl, fun _ _ => le_rfl, fun _ _ => le_rfl⟩

theorem moreExtreme_top {candidate current : ChanFractal} (h : candidate.fractalType = .top) :
    moreExtreme candidate current = true ↔ current.price < candidate.price := by
  simp only [moreExtreme, if_pos h, decide_eq_true_eq]

theorem moreExtreme_bottom {candidate current : ChanFractal} (h : candidate.fractalType = .bottom) :
    moreExtreme candidate current = true ↔ candidate.price < current.price := by
  have hne : candidate.fractalType ≠ .top := by rw [h]; exact nofun
  simp only [moreExtreme, if_neg hne, decide_eq_true_eq]

-- ==== the price change

theorem priceChange_mono_up (hstart : 0 < start) (h : start ≤ price) (h' : price ≤ later) :
    priceChange rounding start price ≤ priceChange rounding start later := by
  have hratio : 1 ≤ price / start := (one_le_div₀ hstart).mpr h
  have hratio' : price / start ≤ later / start := (div_le_div_iff_of_pos_right hstart).mpr h'
  have hone : 1 ≤ rounding.float (price / start) := by
    have hfloat := rounding.float_mono hratio
    rwa [rounding.float_one] at hfloat
  have hzero : 0 ≤ rounding.float (rounding.float (price / start) - 1) := by
    have hfloat := rounding.float_mono (sub_nonneg.mpr hone)
    rwa [rounding.float_zero] at hfloat
  have hle : rounding.float (rounding.float (price / start) - 1) ≤
      rounding.float (rounding.float (later / start) - 1) :=
    rounding.float_mono (sub_le_sub_right (rounding.float_mono hratio') 1)
  unfold priceChange
  rw [if_pos hstart, if_pos hstart, abs_of_nonneg hzero, abs_of_nonneg (hzero.trans hle)]
  exact hle

theorem priceChange_mono_down (hstart : 0 < start) (h : price ≤ start) (h' : later ≤ price) :
    priceChange rounding start price ≤ priceChange rounding start later := by
  have hratio : price / start ≤ 1 := (div_le_one₀ hstart).mpr h
  have hratio' : later / start ≤ price / start := (div_le_div_iff_of_pos_right hstart).mpr h'
  have hone : rounding.float (price / start) ≤ 1 := by
    have hfloat := rounding.float_mono hratio
    rwa [rounding.float_one] at hfloat
  have hzero : rounding.float (rounding.float (price / start) - 1) ≤ 0 := by
    have hfloat := rounding.float_mono (sub_nonpos.mpr hone)
    rwa [rounding.float_zero] at hfloat
  have hle : rounding.float (rounding.float (later / start) - 1) ≤
      rounding.float (rounding.float (price / start) - 1) :=
    rounding.float_mono (sub_le_sub_right (rounding.float_mono hratio') 1)
  unfold priceChange
  rw [if_pos hstart, if_pos hstart, abs_of_nonpos hzero, abs_of_nonpos (hle.trans hzero)]
  exact neg_le_neg hle

theorem ne_of_priceChange_pos {start price : ℚ} (h : 0 < priceChange rounding start price) :
    0 < start ∧ price ≠ start := by
  unfold priceChange at h
  by_cases hstart : 0 < start
  · rw [if_pos hstart] at h
    refine ⟨hstart, ?_⟩
    rintro rfl
    rw [div_self hstart.ne', rounding.float_one, sub_self, rounding.float_zero, abs_zero] at h
    exact lt_irrefl _ h
  · rw [if_neg hstart] at h
    exact absurd h (lt_irrefl _)

-- ==== the accepted

section Accepted

variable {minKlineGap : Int} {minPriceChange : ℚ}

theorem Good.beyond {first last later : ChanFractal}
    (h : Good rounding minKlineGap minPriceChange first last) (hbeyond : Beyond last later) :
    Good rounding minKlineGap minPriceChange first later := by
  have hindex := hbeyond.index_le
  have hgap := h.gap
  constructor
  case types_ne => rw [hbeyond.sameType]; exact h.types_ne
  case rises =>
    intro hbottom
    have htop := (bottom_iff_of_ne h.types_ne).mp hbottom
    exact lt_of_lt_of_le (h.rises hbottom) (hbeyond.above htop)
  case falls =>
    intro htop
    have hbottom := (top_iff_of_ne h.types_ne).mp htop
    exact lt_of_le_of_lt (hbeyond.below hbottom) (h.falls htop)
  case gap => omega
  case positive => exact h.positive
  case change =>
    refine h.change.trans ?_
    cases htype : last.fractalType with
    | top =>
      have hbottom := (bottom_iff_of_ne h.types_ne).mpr htype
      exact priceChange_mono_up h.positive (h.rises hbottom).le (hbeyond.above htype)
    | bottom =>
      have htop := (top_iff_of_ne h.types_ne).mpr htype
      exact priceChange_mono_down h.positive (h.falls htop).le (hbeyond.below htype)

variable {current last fractal : ChanFractal} {fractals : List ChanFractal}

/-- A valid stroke to the fractal after the last one seen is a good
pair. -/
theorem good_of_validStroke (hpositive : 0 < minPriceChange) (hlast : NotBeyond current last)
    (hzig : Zig last fractal) (htype : fractal.fractalType ≠ current.fractalType)
    (hvalid : validStroke rounding minKlineGap minPriceChange current fractal) :
    Good rounding minKlineGap minPriceChange current fractal := by
  simp only [validStroke, Bool.and_eq_true, decide_eq_true_eq] at hvalid
  obtain ⟨hgap, hchange⟩ := hvalid
  have hsame : last.fractalType = current.fractalType := type_eq_of_ne hzig.types_ne htype.symm
  have hindex : current.index < fractal.index := lt_of_le_of_lt hlast.index_le hzig.index_lt
  obtain ⟨hstart, hne⟩ := ne_of_priceChange_pos (lt_of_lt_of_le hpositive hchange)
  constructor
  case types_ne => exact htype.symm
  case rises =>
    intro hbottom
    have hle : current.price ≤ fractal.price :=
      (hlast.above hsame hbottom).trans (hzig.above (hsame.trans hbottom))
    exact lt_of_le_of_ne hle hne.symm
  case falls =>
    intro htop
    have hle : fractal.price ≤ current.price :=
      (hzig.below (hsame.trans htop)).trans (hlast.below hsame htop)
    exact lt_of_le_of_ne hle hne
  case gap => rwa [abs_of_pos (by omega)] at hgap
  case positive => exact hstart
  case change => exact hchange

/-- A fractal of the same type either replaces `accepted[-1]` or is not more
extreme. -/
theorem beyond_of_moreExtreme (hlast : NotBeyond current last) (hzig : Zig last fractal)
    (htype : fractal.fractalType = current.fractalType)
    (hmore : moreExtreme fractal current) : Beyond current fractal := by
  constructor
  case sameType => exact htype
  case index_le => exact hlast.index_le.trans hzig.index_lt.le
  case above =>
    intro htop
    exact ((moreExtreme_top (htype.trans htop)).mp hmore).le
  case below =>
    intro hbottom
    exact ((moreExtreme_bottom (htype.trans hbottom)).mp hmore).le

theorem notBeyond_of_not_moreExtreme (hlast : NotBeyond current last) (hzig : Zig last fractal)
    (hmore : ¬ moreExtreme fractal current) : NotBeyond current fractal := by
  constructor
  case index_le => exact hlast.index_le.trans hzig.index_lt.le
  case above =>
    intro htype hbottom
    refine not_lt.mp fun hlt => hmore ?_
    exact (moreExtreme_bottom (htype.trans hbottom)).mpr hlt
  case below =>
    intro htype htop
    refine not_lt.mp fun hlt => hmore ?_
    exact (moreExtreme_top (htype.trans htop)).mpr hlt

theorem notBeyond_of_types_ne (hlast : NotBeyond current last) (hzig : Zig last fractal)
    (htype : fractal.fractalType ≠ current.fractalType) :
    NotBeyond current fractal :=
  ⟨hlast.index_le.trans hzig.index_lt.le, fun h => absurd h htype, fun h => absurd h htype⟩

/-- The accepted fractals from `accepted[-1]` on: the first is that one or
what has replaced it, and every two neighbours are a good pair. -/
theorem isChain_acceptFrom (hpositive : 0 < minPriceChange) {current last : ChanFractal}
    (hlast : NotBeyond current last) (hzig : (last :: fractals).IsChain Zig) :
    ∃ head tail, acceptFrom rounding minKlineGap minPriceChange current fractals =
        head :: tail ∧
      Beyond current head ∧
      (head :: tail).IsChain (Good rounding minKlineGap minPriceChange) := by
  induction fractals generalizing current last with
  | nil => exact ⟨current, [], rfl, .refl _, isChain_singleton _⟩
  | cons fractal fractals ih =>
    obtain ⟨hstep, hzig'⟩ := isChain_cons_cons.mp hzig
    unfold acceptFrom
    by_cases htype : fractal.fractalType = current.fractalType
    · rw [if_pos htype]
      by_cases hmore : moreExtreme fractal current
      · -- It replaces `accepted[-1]`.
        rw [if_pos hmore]
        obtain ⟨head, tail, heq, hbeyond, hchain⟩ := ih (.refl _) hzig'
        exact ⟨head, tail, heq, (beyond_of_moreExtreme hlast hstep htype hmore).trans hbeyond,
          hchain⟩
      · rw [if_neg hmore]
        exact ih (notBeyond_of_not_moreExtreme hlast hstep hmore) hzig'
    · rw [if_neg htype]
      by_cases hvalid : validStroke rounding minKlineGap minPriceChange current fractal
      · -- It is appended; what replaces it later keeps the pair good.
        rw [if_pos hvalid]
        obtain ⟨head, tail, heq, hbeyond, hchain⟩ := ih (.refl _) hzig'
        have hgood := good_of_validStroke hpositive hlast hstep htype hvalid
        refine ⟨current, head :: tail, congrArg _ heq, .refl _, ?_⟩
        exact isChain_cons_cons.mpr ⟨hgood.beyond hbeyond, hchain⟩
      · rw [if_neg hvalid]
        exact ih (notBeyond_of_types_ne hlast hstep htype) hzig'

theorem isChain_accept (hpositive : 0 < minPriceChange) (hzig : fractals.IsChain Zig) :
    (accept rounding minKlineGap minPriceChange fractals).IsChain
      (Good rounding minKlineGap minPriceChange) := by
  cases fractals with
  | nil => exact isChain_nil
  | cons first fractals =>
    obtain ⟨head, tail, heq, _, hchain⟩ := isChain_acceptFrom hpositive (.refl first) hzig
    have haccept : accept rounding minKlineGap minPriceChange
        (first :: fractals) = head :: tail := heq
    rw [haccept]
    exact hchain

-- ==== the strokes

/-- A stroke that goes the way its direction says, far enough and by
enough. -/
structure StrokeSound (rounding : Rounding) (minKlineGap : Int)
    (minPriceChange : ℚ) (stroke : ChanStroke) : Prop where
  up : stroke.direction = .up → stroke.startPrice < stroke.endPrice
  down : stroke.direction = .down → stroke.endPrice < stroke.startPrice
  gap : minKlineGap ≤ (stroke.endIndex : Int) - stroke.startIndex
  positive : 0 < stroke.startPrice
  change : minPriceChange ≤ |rounding.float
    (rounding.float (stroke.endPrice / stroke.startPrice) - 1)|

/-- A stroke and the next one: the other way, from where the first ended. -/
structure Joined (stroke next : ChanStroke) : Prop where
  direction_ne : stroke.direction ≠ next.direction
  index : stroke.endIndex = next.startIndex
  time : stroke.endTime = next.startTime
  price : stroke.endPrice = next.startPrice

variable {first last : ChanFractal}

theorem strokeBetween_direction (data : List Row)
    (h : Good rounding minKlineGap minPriceChange first last) :
    ((strokeBetween rounding data first last).direction = .up ↔
      first.fractalType = .bottom) := by
  have hlast := bottom_iff_of_ne h.types_ne
  unfold strokeBetween
  by_cases hfirst : first.fractalType = .bottom
  · rw [if_pos ⟨hfirst, hlast.mp hfirst⟩]
    exact iff_of_true rfl hfirst
  · rw [if_neg fun hboth => hfirst hboth.1]
    exact iff_of_false nofun hfirst

theorem strokeSound_strokeBetween (data : List Row)
    (h : Good rounding minKlineGap minPriceChange first last) :
    StrokeSound rounding minKlineGap minPriceChange (strokeBetween rounding data first last) := by
  have hdirection := strokeBetween_direction data h
  have hchange := h.change
  constructor
  case up => exact fun hup => h.rises (hdirection.mp hup)
  case down =>
    intro hdown
    refine h.falls ?_
    cases htype : first.fractalType with
    | top => rfl
    | bottom =>
      have hup := hdirection.mpr htype
      rw [hdown] at hup
      exact nomatch hup
  case gap => exact h.gap
  case positive => exact h.positive
  case change =>
    unfold priceChange at hchange
    rwa [if_pos h.positive] at hchange

theorem joined_strokeBetween (data : List Row) {first middle last : ChanFractal}
    (h : Good rounding minKlineGap minPriceChange first middle)
    (h' : Good rounding minKlineGap minPriceChange middle last) :
    Joined (strokeBetween rounding data first middle)
      (strokeBetween rounding data middle last) := by
  have hdirection := strokeBetween_direction data h
  have hdirection' := strokeBetween_direction data h'
  refine ⟨fun heq => ?_, rfl, rfl, rfl⟩
  rw [heq, hdirection'] at hdirection
  refine h.types_ne ?_
  cases hmiddle : middle.fractalType with
  | bottom => exact hdirection.mp hmiddle
  | top =>
    have hfirst := (bottom_iff_of_ne h.types_ne).mpr hmiddle
    exact absurd (hmiddle.symm.trans (hdirection.mpr hfirst)) nofun

/-- The strokes of fractals of which every two neighbours are a good
pair. -/
theorem strokes_of_isChain_good (data : List Row) {accepted : List ChanFractal}
    (h : accepted.IsChain (Good rounding minKlineGap minPriceChange)) :
    let strokes := (accepted.zip accepted.tail).map fun pair =>
      strokeBetween rounding data pair.1 pair.2
    strokes.IsChain Joined ∧ ∀ stroke ∈ strokes,
        StrokeSound rounding minKlineGap minPriceChange stroke := by
  induction h with
  | nil => exact ⟨isChain_nil, fun _ h => absurd h not_mem_nil⟩
  | singleton => exact ⟨isChain_nil, fun _ h => absurd h not_mem_nil⟩
  | @cons_cons first middle rest hgood hchain ih =>
    obtain ⟨hjoined, hsound⟩ := ih
    constructor
    · cases rest with
      | nil => exact isChain_singleton _
      | cons last rest =>
        have hnext := (isChain_cons_cons.mp hchain).1
        exact isChain_cons_cons.mpr ⟨joined_strokeBetween data hgood hnext, hjoined⟩
    · exact forall_mem_cons.mpr ⟨strokeSound_strokeBetween data hgood, hsound⟩

end Accepted

-- ==== well-formedness

structure ChanSound (rounding : Rounding) (minKlineGap : Int)
    (minPriceChange : ℚ) (fractals : List ChanFractal)
    (strokes : List ChanStroke) : Prop where
  alternate : fractals.IsChain fun fractal following => fractal.fractalType ≠ following.fractalType
  joined : strokes.IsChain Joined
  sound : ∀ stroke ∈ strokes, StrokeSound rounding minKlineGap minPriceChange stroke

/-- On every frame of bars with low at most high, and for every least gap
and every positive least change, the fractals alternate and the strokes are
well formed. Only a frame without bars has no fractals to find: there the
lookup of its volume fails. -/
theorem chan_strokes_sound (rounding : Rounding) (bars : List Bar) (minKlineGap : Int)
    (minPriceChange : ℚ) (hordered : ∀ bar ∈ bars, bar.low ≤ bar.high)
    (hpositive : 0 < minPriceChange) :
    (bars ≠ [] → (findFractals rounding (normalizeInclusions bars)).isOk) ∧
    ∀ fractals, findFractals rounding (normalizeInclusions bars) = .ok fractals →
      ChanSound rounding minKlineGap minPriceChange fractals
        (buildStrokes rounding (normalizeInclusions bars) fractals minKlineGap minPriceChange) := by
  constructor
  · intro hbars
    unfold findFractals
    rw [require_true (normalizeInclusions_ne_nil hbars)]
    rfl
  · intro fractals hfractals
    have hzig : fractals.IsChain Zig := by
      rw [findFractals_eq_ok hfractals]
      exact isChain_fractalsFrom (isChain_normalizeInclusions bars)
        (ordered_normalizeInclusions hordered)
    have hgood : (accept rounding minKlineGap minPriceChange
        fractals).IsChain (Good rounding minKlineGap minPriceChange) :=
      isChain_accept hpositive hzig
    obtain ⟨hjoined, hsound⟩ := strokes_of_isChain_good (normalizeInclusions bars) hgood
    exact ⟨hzig.imp fun _ _ h => h.types_ne, hjoined, hsound⟩

/-- Ten bars with one inclusion: a rise whose end is replaced by a higher
top after a bottom that is too near, and a fall. -/
def sampleBars : List Bar :=
  [(9, 10), (7, 8), (11, 12), (13, 14), (12, 13), (15, 16), (15, 17),
    (10, 11), (6, 7), (8, 9)].map fun (low, high) =>
      { timestamp := 0, openPrice := low, high, low, close := high,
        volume := 1, amount := 1 }

theorem chan_strokes_sound_sample : (∃ fractals,
      findFractals .exact (normalizeInclusions sampleBars) = .ok fractals ∧
      fractals.map (·.index) = [1, 3, 4, 5, 7] ∧
      (buildStrokes .exact (normalizeInclusions sampleBars) fractals 2
        (1 / 100)).map (fun stroke => (stroke.startIndex, stroke.endIndex)) = [(1, 5), (5, 7)]) ∧
    ∀ fractals, findFractals .exact (normalizeInclusions sampleBars) = .ok fractals →
      ChanSound .exact 2 (1 / 100) fractals
        (buildStrokes .exact (normalizeInclusions sampleBars) fractals 2 (1 / 100)) := by
  constructor
  · exact ⟨_, rfl, by decide +kernel, by decide +kernel⟩
  · exact (chan_strokes_sound .exact sampleBars 2 (1 / 100) (by decide +kernel) (by norm_num)).2

end MarketRegimeAlpha.DividendT
