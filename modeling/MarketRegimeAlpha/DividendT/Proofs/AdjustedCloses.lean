/-
When the adjustment of closes by corporate actions is well defined.

# One close at a time

An action changes each close by itself, so the adjusted closes are the raw
ones under a map of their timestamp (`adjusted`): the actions in effect after
the timestamp and by the evaluation, in the order of their effective times,
each an increasing map of the close. Future actions are not among them, and
none is when the close is as late as the last of them.
-/
import Mathlib.Tactic.FieldSimp
import Mathlib.Tactic.LinearCombination
import Mathlib.Tactic.Ring
import MarketRegimeAlpha.DividendT.MacdBars

namespace MarketRegimeAlpha.DividendT

open Lib List

-- ==== one action

namespace CorporateAction

/-- What the code accepts of an action in effect. -/
structure Valid (action : CorporateAction) : Prop where
  factor : 0 < action.shareFactor
  cash : 0 ≤ action.cashPerShare

/-- Taking the actions in either order rebases alike. -/
def Commute (a b : CorporateAction) : Prop :=
  a.cashPerShare * (b.shareFactor - 1) = b.cashPerShare * (a.shareFactor - 1)

variable {a b : CorporateAction}

theorem rebase_lt (ha : a.Valid) {x y : ℚ} (h : x < y) : a.rebase x < a.rebase y :=
  div_lt_div_of_pos_right (sub_lt_sub_right h _) ha.factor

/-- The maps of two actions commute at one close, and then at all, exactly when
the actions do. -/
theorem rebase_comm_iff (ha : a.Valid) (hb : b.Valid) (x : ℚ) :
    b.rebase (a.rebase x) = a.rebase (b.rebase x) ↔ Commute a b := by
  have hfa := ha.factor.ne'
  have hfb := hb.factor.ne'
  unfold rebase Commute
  rw [div_sub' hfa, div_sub' hfb, div_div, div_div, mul_comm b.shareFactor a.shareFactor,
    div_left_inj' (mul_ne_zero hfa hfb)]
  constructor
  case mp =>
    intro h
    linear_combination h
  case mpr =>
    intro h
    linear_combination h

theorem le_rebase (ha : a.Valid) {x bound : ℚ}
    (h : bound * a.shareFactor + a.cashPerShare ≤ x) : bound ≤ a.rebase x := by
  unfold rebase
  rw [le_div_iff₀ ha.factor]
  linarith

end CorporateAction

-- ==== one close

def adjustClose (evaluationTime timestamp : Instant) (value : ℚ) (action : CorporateAction) : ℚ :=
  if action.effectiveTime ≤ evaluationTime ∧ timestamp < action.effectiveTime then
    action.rebase value
  else value

def adjusted (actions : List CorporateAction) (evaluationTime timestamp : Instant)
    (value : ℚ) : ℚ :=
  actions.foldl (adjustClose evaluationTime timestamp) value

section OneClose

variable {evaluationTime timestamp : Instant} {actions : List CorporateAction}
  {action : CorporateAction}

theorem adjustClose_of_applies
    (h : action.effectiveTime ≤ evaluationTime) (h' : timestamp < action.effectiveTime)
    (value : ℚ) : adjustClose evaluationTime timestamp value action
      = action.rebase value := if_pos ⟨h, h'⟩

theorem adjustClose_lt (hvalid : action.Valid) {x y : ℚ}
    (h : x < y) : adjustClose evaluationTime timestamp x action
      < adjustClose evaluationTime timestamp y action := by
  unfold adjustClose
  split
  next => exact CorporateAction.rebase_lt hvalid h
  next => exact h

theorem adjusted_strictMono (hvalid : ∀ action ∈ actions, action.Valid) :
    StrictMono (adjusted actions evaluationTime timestamp) := by
  intro x y h
  induction actions generalizing x y with
  | nil => exact h
  | cons action actions ih =>
    obtain ⟨haction, hactions⟩ := forall_mem_cons.mp hvalid
    exact ih hactions (adjustClose_lt haction h)

theorem adjusted_eq_self (value : ℚ)
    (h : ∀ action ∈ actions, action.effectiveTime ≤ evaluationTime →
      action.effectiveTime ≤ timestamp) :
    adjusted actions evaluationTime timestamp value = value := by
  unfold adjusted
  induction actions with
  | nil => rfl
  | cons action actions ih =>
    obtain ⟨haction, hactions⟩ := forall_mem_cons.mp h
    have hnot : ¬ (action.effectiveTime ≤ evaluationTime ∧ timestamp < action.effectiveTime) :=
      fun happlies => absurd happlies.2 (not_lt.mpr (haction happlies.1))
    rw [foldl_cons, adjustClose, if_neg hnot]
    exact ih hactions

/-- A close that is large enough ends above any bound, under every
timestamp. -/
theorem exists_large (hvalid : ∀ action ∈ actions, action.Valid)
    (evaluationTime : Instant) (bound : ℚ) : ∃ least, ∀ value, least ≤ value →
      ∀ timestamp, bound ≤ adjusted actions evaluationTime timestamp value := by
  induction actions with
  | nil => exact ⟨bound, fun value h _ => h⟩
  | cons action actions ih =>
    obtain ⟨haction, hactions⟩ := forall_mem_cons.mp hvalid
    obtain ⟨least, hleast⟩ := ih hactions
    refine ⟨max least (least * action.shareFactor + action.cashPerShare), ?_⟩
    intro value hvalue timestamp
    obtain ⟨hplain, hrebased⟩ := max_le_iff.mp hvalue
    apply hleast
    unfold adjustClose
    split
    next => exact CorporateAction.le_rebase haction hrebased
    next => exact hplain

end OneClose

-- ==== all closes

/-- The closes of a column of timestamps after some actions. -/
def adjustedCloses (actions : List CorporateAction) (evaluationTime : Instant)
    (timestamps : List Instant) (values : List ℚ) : List ℚ :=
  List.zipWith (adjusted actions evaluationTime) timestamps values

section AllCloses

variable {evaluationTime : Instant} {timestamps : List Instant} {actions : List CorporateAction}
  {values : List ℚ}

theorem applyAction_ok {action : CorporateAction} (hvalid : action.Valid)
    (hlength : values.length = timestamps.length) :
    applyAction timestamps evaluationTime values action = .ok (List.zipWith (fun timestamp value =>
          adjustClose evaluationTime timestamp value action) timestamps values) := by
  unfold applyAction
  by_cases hfuture : evaluationTime < action.effectiveTime
  · have hkeep : (fun (timestamp : Instant) (value : ℚ) =>
        adjustClose evaluationTime timestamp value action)
        = fun _ value => value := by
      funext timestamp value
      exact if_neg fun h => absurd h.1 (not_le.mpr hfuture)
    have hsecond : List.zipWith (fun (_ : Instant) (value : ℚ) => value) timestamps
        values = values := by
      rw [← map_uncurry_zip_eq_zipWith]
      exact map_snd_zip hlength.le
    rw [if_pos hfuture, hkeep, hsecond]
    rfl
  · have hpast : action.effectiveTime ≤ evaluationTime := not_lt.mp hfuture
    rw [if_neg hfuture, require_true hvalid.factor, ok_bind, require_true hvalid.cash, ok_bind]
    simp only [adjustClose, hpast, true_and]
    rfl

theorem foldlM_applyAction (hvalid : ∀ action ∈ actions, action.Valid)
    (hlength : values.length = timestamps.length) :
    actions.foldlM (applyAction timestamps evaluationTime) values
      = .ok (adjustedCloses actions evaluationTime timestamps values) := by
  induction actions generalizing values with
  | nil =>
    have hsecond : List.zipWith (fun (_ : Instant) (value : ℚ) => value) timestamps
        values = values := by
      rw [← map_uncurry_zip_eq_zipWith]
      exact map_snd_zip hlength.le
    exact congrArg Except.ok hsecond.symm
  | cons action actions ih =>
    obtain ⟨haction, hactions⟩ := forall_mem_cons.mp hvalid
    rw [foldlM_cons, applyAction_ok haction hlength, ok_bind,
      ih hactions (by rw [length_zipWith, hlength, min_self])]
    unfold adjustedCloses
    congr 1
    apply ext_getElem?
    intro i
    simp only [getElem?_zipWith]
    cases timestamps[i]? with
    | none => rfl
    | some timestamp =>
      cases values[i]? with
      | none => rfl
      | some value => rfl

theorem pointInTimeAdjustedCloses_eq (hvalid : ∀ action ∈ actions, action.Valid)
    {rawCloses : List ℚ} (hlength : rawCloses.length = timestamps.length) :
    pointInTimeAdjustedCloses rawCloses timestamps actions evaluationTime = (do
          Lib.require (∀ value ∈ adjustedCloses (sortBy (·.effectiveTime) actions)
              evaluationTime timestamps rawCloses, 0 < value)
            (.valueError "adjusted close must be finite and positive")
          return adjustedCloses (sortBy (·.effectiveTime) actions) evaluationTime
            timestamps rawCloses) := by
  have hsorted : ∀ action ∈ sortBy (·.effectiveTime) actions, action.Valid :=
    fun action h => hvalid action ((sortBy_perm _ actions).mem_iff.mp h)
  unfold pointInTimeAdjustedCloses
  rw [foldlM_applyAction hsorted hlength, ok_bind]

theorem foldlM_filter (actions : List CorporateAction) (values : List ℚ) :
    (actions.filter (·.effectiveTime ≤ evaluationTime)).foldlM
        (applyAction timestamps evaluationTime) values
      = actions.foldlM (applyAction timestamps evaluationTime) values := by
  induction actions generalizing values with
  | nil => rfl
  | cons action actions ih =>
    by_cases h : action.effectiveTime ≤ evaluationTime
    · rw [filter_cons_of_pos (by simpa using h), foldlM_cons, foldlM_cons]
      exact congrArg _ (funext ih)
    · have hskip : applyAction timestamps evaluationTime values action
          = .ok values := if_pos (not_le.mp h)
      rw [filter_cons_of_neg (by simpa using h), ih, foldlM_cons, hskip, ok_bind]

theorem closes_of_filter (rawCloses : List ℚ) (timestamps : List Instant)
    (actions : List CorporateAction) (evaluationTime : Instant) :
    pointInTimeAdjustedCloses rawCloses timestamps
        (actions.filter (·.effectiveTime ≤ evaluationTime)) evaluationTime
      = pointInTimeAdjustedCloses rawCloses timestamps actions evaluationTime := by
  unfold pointInTimeAdjustedCloses
  rw [← filter_sortBy, foldlM_filter]

end AllCloses

-- ==== well-definedness

/-- What makes the adjustment of some closes well defined: it does not depend
on the listing of the actions, nor on actions after the evaluation; it leaves
the closes that are as late as the last action in effect; and larger closes have
larger adjusted ones. -/
structure WellDefined (rawCloses : List ℚ) (timestamps : List Instant)
    (actions : List CorporateAction) (evaluationTime : Instant) : Prop where
  listing : ∀ actions' : List CorporateAction, actions'.Perm actions →
    pointInTimeAdjustedCloses rawCloses timestamps actions' evaluationTime
      = pointInTimeAdjustedCloses rawCloses timestamps actions evaluationTime
  future : ∀ actions' : List CorporateAction, actions'.filter (·.effectiveTime ≤ evaluationTime)
        = actions.filter (·.effectiveTime ≤ evaluationTime) →
    pointInTimeAdjustedCloses rawCloses timestamps actions' evaluationTime
      = pointInTimeAdjustedCloses rawCloses timestamps actions evaluationTime
  recent : ∀ closes : List ℚ,
    pointInTimeAdjustedCloses rawCloses timestamps actions evaluationTime = .ok closes →
    ∀ (i : Nat) (timestamp : Instant), timestamps[i]? = some timestamp →
      (∀ action ∈ actions, action.effectiveTime ≤ evaluationTime →
        action.effectiveTime ≤ timestamp) →
      closes[i]? = rawCloses[i]?
  monotone : ∀ larger closes : List ℚ, List.Forall₂ (· ≤ ·) rawCloses larger →
    pointInTimeAdjustedCloses rawCloses timestamps actions evaluationTime = .ok closes →
    ∃ closes', pointInTimeAdjustedCloses larger timestamps actions evaluationTime
        = .ok closes' ∧ List.Forall₂ (· ≤ ·) closes closes'

/-- Actions that take effect at one instant, by the evaluation and after some
timestamp, commute. -/
def SimultaneousCommute (timestamps : List Instant)
    (actions : List CorporateAction) (evaluationTime : Instant) : Prop :=
  ∀ a ∈ actions, ∀ b ∈ actions, a.effectiveTime = b.effectiveTime →
    a.effectiveTime ≤ evaluationTime →
    (∃ timestamp ∈ timestamps, timestamp < a.effectiveTime) → a.Commute b

section WellDefinedness

variable {evaluationTime : Instant} {timestamps : List Instant} {actions : List CorporateAction}
  {rawCloses : List ℚ} {a b : CorporateAction} {timestamp : Instant}

variable (hvalid : ∀ action ∈ actions, action.Valid)

include hvalid in
/-- Where simultaneous actions commute, every listing gives a close one
price. -/
theorem adjusted_sort_eq (hcomm : SimultaneousCommute timestamps actions evaluationTime)
    {actions' : List CorporateAction} (h : actions'.Perm actions)
    (htimestamp : timestamp ∈ timestamps) (value : ℚ) :
    adjusted (sortBy (·.effectiveTime) actions') evaluationTime timestamp value
      = adjusted (sortBy (·.effectiveTime) actions) evaluationTime timestamp
        value := by
  have hmem : ∀ {action}, action ∈ sortBy (·.effectiveTime) actions' → action ∈ actions :=
    fun hx => h.mem_iff.mp ((sortBy_perm _ actions').mem_iff.mp hx)
  apply foldl_eq_of_sorted ((sortBy_perm _ actions').trans (h.trans (sortBy_perm _ actions).symm))
    (sortBy_pairwise _ _) (sortBy_pairwise _ _)
  intro a ha b hb hkey x
  by_cases happlies : a.effectiveTime ≤ evaluationTime ∧ timestamp < a.effectiveTime
  · have happlies' : b.effectiveTime ≤ evaluationTime
        ∧ timestamp < b.effectiveTime := by rwa [← hkey]
    rw [adjustClose_of_applies happlies.1 happlies.2,
      adjustClose_of_applies happlies'.1 happlies'.2,
      adjustClose_of_applies happlies'.1 happlies'.2,
      adjustClose_of_applies happlies.1 happlies.2]
    exact (CorporateAction.rebase_comm_iff (hvalid a (hmem ha)) (hvalid b (hmem hb))
      x).mpr (hcomm a (hmem ha) b (hmem hb) hkey happlies.1 ⟨timestamp, htimestamp, happlies.2⟩)
  · have happlies' : ¬ (b.effectiveTime ≤ evaluationTime
        ∧ timestamp < b.effectiveTime) := by rwa [← hkey]
    unfold adjustClose
    rw [if_neg happlies, if_neg happlies', if_neg happlies]

theorem adjustedCloses_congr {first last : List CorporateAction}
    (h : ∀ timestamp ∈ timestamps, ∀ value, adjusted first evaluationTime timestamp value
        = adjusted last evaluationTime timestamp value) :
    adjustedCloses first evaluationTime timestamps rawCloses
      = adjustedCloses last evaluationTime timestamps rawCloses := by
  unfold adjustedCloses
  apply ext_getElem?
  intro i
  simp only [getElem?_zipWith]
  cases htimestamp : timestamps[i]? with
  | none => rfl
  | some timestamp =>
    cases rawCloses[i]? with
    | none => rfl
    | some value => exact congrArg some (h timestamp (mem_of_getElem? htimestamp) value)

include hvalid in
theorem closes_ok (hlength : rawCloses.length = timestamps.length) {closes : List ℚ} :
    pointInTimeAdjustedCloses rawCloses timestamps actions evaluationTime = .ok closes
      ↔ (∀ value ∈ closes, 0 < value)
        ∧ adjustedCloses (sortBy (·.effectiveTime) actions) evaluationTime
          timestamps rawCloses = closes := by
  rw [pointInTimeAdjustedCloses_eq hvalid hlength]
  simp only [bind_ok, require_ok, pure_ok]
  constructor
  case mp =>
    rintro ⟨_, hpositive, heq⟩
    rw [heq] at hpositive
    exact ⟨hpositive, heq⟩
  case mpr =>
    rintro ⟨hpositive, heq⟩
    rw [heq]
    exact ⟨(), hpositive, rfl⟩

include hvalid in
theorem sortBy_valid : ∀ action ∈ sortBy (·.effectiveTime) actions, action.Valid :=
  fun action h => hvalid action ((sortBy_perm _ actions).mem_iff.mp h)

theorem adjustedCloses_mono (evaluationTime : Instant) (hvalid : ∀ action ∈ actions, action.Valid)
    {larger : List ℚ} (h : List.Forall₂ (· ≤ ·) rawCloses larger) (timestamps : List Instant) :
    List.Forall₂ (· ≤ ·) (adjustedCloses actions evaluationTime timestamps rawCloses)
      (adjustedCloses actions evaluationTime timestamps larger) := by
  induction h generalizing timestamps with
  | nil => cases timestamps <;> exact .nil
  | cons hle _ ih =>
    cases timestamps with
    | nil => exact .nil
    | cons timestamp timestamps =>
      exact .cons ((adjusted_strictMono hvalid).monotone hle) (ih timestamps)

include hvalid in
/-- Where simultaneous actions commute the adjustment is well defined. -/
theorem wellDefined_of_commute (hlength : rawCloses.length = timestamps.length)
    (hcomm : SimultaneousCommute timestamps actions evaluationTime) :
    WellDefined rawCloses timestamps actions evaluationTime := by
  constructor
  case listing =>
    intro actions' hperm
    have hvalid' : ∀ action ∈ actions', action.Valid :=
      fun action h => hvalid action (hperm.mem_iff.mp h)
    have hcloses : adjustedCloses (sortBy (·.effectiveTime) actions') evaluationTime
        timestamps rawCloses
        = adjustedCloses (sortBy (·.effectiveTime) actions) evaluationTime timestamps
          rawCloses :=
      adjustedCloses_congr fun timestamp htimestamp value =>
        adjusted_sort_eq hvalid hcomm hperm htimestamp value
    rw [pointInTimeAdjustedCloses_eq hvalid' hlength,
      pointInTimeAdjustedCloses_eq hvalid hlength, hcloses]
  case future =>
    intro actions' hfilter
    rw [← closes_of_filter, hfilter, closes_of_filter]
  case recent =>
    intro closes hcloses i timestamp htimestamp hlast
    obtain ⟨-, rfl⟩ := (closes_ok hvalid hlength).mp hcloses
    unfold adjustedCloses
    rw [getElem?_zipWith, htimestamp]
    cases rawCloses[i]? with
    | none => rfl
    | some value =>
      apply congrArg some
      apply adjusted_eq_self
      exact fun action h => hlast action ((sortBy_perm _ actions).mem_iff.mp h)
  case monotone =>
    intro larger closes hlarger hcloses
    obtain ⟨hpositive, rfl⟩ := (closes_ok hvalid hlength).mp hcloses
    have hmono := adjustedCloses_mono evaluationTime (sortBy_valid hvalid) hlarger timestamps
    refine ⟨_, (closes_ok hvalid (hlarger.length_eq.symm.trans hlength)).mpr ⟨?_, rfl⟩, hmono⟩
    intro value hvalue
    obtain ⟨smaller, hsmaller, hle⟩ := forall₂_right hmono hvalue
    exact lt_of_lt_of_le (hpositive smaller hsmaller) hle

include hvalid in
/-- Two simultaneous actions that rebase a close to one price in both orders
commute. -/
theorem commute_of_adjusted_eq (ha : a.Valid) (hb : b.Valid)
    (hkey : a.effectiveTime = b.effectiveTime)
    (hpast : a.effectiveTime ≤ evaluationTime)
    (hbefore : timestamp < a.effectiveTime) {value : ℚ}
    (h : adjusted (sortBy (·.effectiveTime) (a :: b :: actions)) evaluationTime timestamp value
      = adjusted (sortBy (·.effectiveTime) (b :: a :: actions)) evaluationTime
        timestamp value) : a.Commute b := by
  have hpast' : b.effectiveTime ≤ evaluationTime := by rwa [← hkey]
  have hbefore' : timestamp < b.effectiveTime := by rwa [← hkey]
  have hlate : ∀ action ∈ (sortBy (·.effectiveTime) actions).dropWhile
      (fun x => decide (¬ b.effectiveTime ≤ x.effectiveTime)), action.Valid :=
    fun action hmem => sortBy_valid hvalid action ((dropWhile_sublist _).subset hmem)
  rw [sortBy_tied hkey, sortBy_tied hkey.symm, hkey] at h
  unfold adjusted at h
  rw [foldl_append, foldl_append] at h
  have hinner := (adjusted_strictMono hlate).injective h
  rw [adjustClose_of_applies hpast hbefore, adjustClose_of_applies hpast' hbefore',
    adjustClose_of_applies hpast' hbefore', adjustClose_of_applies hpast hbefore]
    at hinner
  exact (CorporateAction.rebase_comm_iff ha hb _).mp hinner

theorem exists_perm_cons_cons (ha : a ∈ actions)
    (hb : b ∈ actions) (hne : a ≠ b) : ∃ rest, actions.Perm (a :: b :: rest) := by
  have hfirst := perm_cons_erase ha
  have hsecond := perm_cons_erase ((mem_erase_of_ne hne.symm).mpr hb)
  exact ⟨_, hfirst.trans (hsecond.cons a)⟩

/-- Of valid actions: the adjustment of every column of closes is well defined
exactly when the actions that take effect at one instant, by the evaluation and
after some timestamp, commute. -/
theorem adjustment_well_defined_iff (timestamps : List Instant)
    (actions : List CorporateAction) (evaluationTime : Instant)
    (hvalid : ∀ action ∈ actions, action.Valid) :
    (∀ rawCloses : List ℚ, rawCloses.length = timestamps.length → (∀ close ∈ rawCloses, 0 < close) →
        WellDefined rawCloses timestamps actions evaluationTime)
      ↔ SimultaneousCommute timestamps actions evaluationTime := by
  constructor
  case mpr =>
    intro hcomm rawCloses hlength _
    exact wellDefined_of_commute hvalid hlength hcomm
  case mp =>
    intro hdefined a ha b hb hkey hpast ⟨timestamp, htimestamp, hbefore⟩
    by_cases hne : a = b
    · rw [hne]
      exact rfl
    · obtain ⟨rest, hperm⟩ := exists_perm_cons_cons ha hb hne
      have hswap : actions.Perm (b :: a :: rest) := hperm.trans (.swap b a rest)
      have hfirst : ∀ action ∈ a :: b :: rest, action.Valid :=
        fun action h => hvalid action (hperm.mem_iff.mpr h)
      have hsecond : ∀ action ∈ b :: a :: rest, action.Valid :=
        fun action h => hvalid action (hswap.mem_iff.mpr h)
      -- closes that stay positive in both orders
      obtain ⟨least, hleast⟩ := exists_large (sortBy_valid hfirst) evaluationTime 1
      obtain ⟨least', hleast'⟩ := exists_large (sortBy_valid hsecond) evaluationTime 1
      have hpositive : ∀ {actions' : List CorporateAction} {bound value : ℚ},
          (∀ value, bound ≤ value → ∀ timestamp,
            1 ≤ adjusted actions' evaluationTime timestamp value) →
          bound ≤ value → ∀ x ∈ adjustedCloses actions' evaluationTime timestamps
            (timestamps.map fun _ => value), 0 < x := by
        intro actions' bound value hbound hvalue x hx
        unfold adjustedCloses at hx
        rw [zipWith_map_right, zipWith_self] at hx
        obtain ⟨t, -, rfl⟩ := mem_map.mp hx
        exact lt_of_lt_of_le one_pos (hbound value hvalue t)
      have hlarge : 1 ≤ max 1 (max least least') := le_max_left _ _
      have hlength : (timestamps.map fun _ => max 1 (max least least')).length
          = timestamps.length := length_map _
      have hwell := hdefined (timestamps.map fun _ => max 1 (max least least')) hlength (by
          intro close hclose
          obtain ⟨_, -, rfl⟩ := mem_map.mp hclose
          exact lt_of_lt_of_le one_pos hlarge)
      have hok := (closes_ok hfirst hlength).mpr
        ⟨hpositive hleast ((le_max_left _ _).trans (le_max_right _ _)), rfl⟩
      have hok' := (closes_ok hsecond hlength).mpr
        ⟨hpositive hleast' ((le_max_right _ _).trans (le_max_right _ _)), rfl⟩
      have hsame := Except.ok.inj (hok.symm.trans ((hwell.listing _ hperm.symm).trans
        ((hwell.listing _ hswap.symm).symm.trans hok')))
      unfold adjustedCloses at hsame
      rw [zipWith_map_right, zipWith_map_right, zipWith_self,
        zipWith_self] at hsame
      have hvalid' : ∀ action ∈ rest, action.Valid := fun action h =>
        hfirst action (mem_cons_of_mem a (mem_cons_of_mem b h))
      exact commute_of_adjusted_eq hvalid' (hvalid a ha) (hvalid b hb) hkey hpast
        hbefore (map_inj_left.mp hsame timestamp htimestamp)

def cashThenSplit : List CorporateAction := [⟨5, 1, 1⟩, ⟨5, 2, 0⟩]

theorem adjustment_well_defined_iff_cash : ¬ SimultaneousCommute [3] cashThenSplit 9 ∧
    ¬ ∀ rawCloses : List ℚ, rawCloses.length = [3].length → (∀ close ∈ rawCloses, 0 < close) →
      WellDefined rawCloses [3] cashThenSplit 9 := by
  have hvalid : ∀ action ∈ cashThenSplit, action.Valid := by
    intro action haction
    simp only [cashThenSplit, mem_cons, not_mem_nil, or_false] at haction
    rcases haction with rfl | rfl
    · exact ⟨by norm_num, by norm_num⟩
    · exact ⟨by norm_num, by norm_num⟩
  have hnot : ¬ SimultaneousCommute [3] cashThenSplit 9 := by
    intro h
    have hcomm := h ⟨5, 1, 1⟩ (by decide) ⟨5, 2, 0⟩ (by decide) rfl (by decide)
      ⟨3, by decide, by decide⟩
    norm_num [CorporateAction.Commute] at hcomm
  exact ⟨hnot, fun h => hnot ((adjustment_well_defined_iff [3] cashThenSplit 9 hvalid).mp h)⟩

/-- A close of ten before both actions is 4.5 in one order and 4 in the
other. -/
theorem simultaneous_order_matters :
    pointInTimeAdjustedCloses [10] [3] [⟨5, 1, 1⟩, ⟨5, 2, 0⟩] 9 = .ok [9 / 2]
      ∧ pointInTimeAdjustedCloses [10] [3] [⟨5, 2, 0⟩, ⟨5, 1, 1⟩] 9 = .ok [4]
      ∧ ¬ WellDefined [10] [3] [⟨5, 1, 1⟩, ⟨5, 2, 0⟩] 9 := by
  have hfirst : pointInTimeAdjustedCloses [10] [3] [⟨5, 1, 1⟩, ⟨5, 2, 0⟩] 9
      = .ok [9 / 2] := by decide +kernel
  have hsecond : pointInTimeAdjustedCloses [10] [3] [⟨5, 2, 0⟩, ⟨5, 1, 1⟩] 9
      = .ok [4] := by decide +kernel
  refine ⟨hfirst, hsecond, fun h => ?_⟩
  have hsame := h.listing [⟨5, 2, 0⟩, ⟨5, 1, 1⟩] (.swap _ _ _)
  exact absurd hsame (by decide +kernel)

end WellDefinedness

end MarketRegimeAlpha.DividendT
