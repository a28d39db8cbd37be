/-
What the Fills have moved since an observation, as a difference of two totals.

# The telescoping

The code lists, for every execution, the Fill that counts now and the one that
counted at the observation, and adds up the differences. The second of the two is
the one that counts among the Fills recorded by then (`lookup_recorded`): an
execution recorded later is not among them, and a correction recorded later has not
replaced its execution yet. So the sum is the total of all Fills less the total of
those (`sum_revisions`), whichever way the correction and the observation lie.

Nothing is asked of the Fills but distinct ids and one correction for each
execution; a correction may correct nothing, and be older than what it corrects.
-/
import MarketRegimeAlpha.Execution.Proofs.ObservedAuthority

namespace MarketRegimeAlpha.Execution

open Lib List
open Position (Instant TradeSide FillKind)

-- ==== the Fills

structure SingleCorrections (fills : List Fill) : Prop where
  ids : (fills.map (·.fillId)).Nodup
  once : ∀ fill ∈ fills, fill.correctionOf = none → ∀ c ∈ fills, ∀ c' ∈ fills,
    c.correctionOf = some fill.fillId → c'.correctionOf = some fill.fillId → c = c'

def recordedFills (asOf : Instant) (fills : List Fill) : List Fill :=
  fills.filter (·.recordedAt ≤ asOf)

def Ledger.recordedBy (ledger : Ledger) (asOf : Instant) : Ledger :=
  { ledger with fills := ledger.fills.filter (·.fill.recordedAt ≤ asOf) }

/-- The total of what `g` makes of the Fills that count. -/
def effectiveTotal {M : Type} [AddMonoid M] (g : Fill → M) (fills : List Fill) : M :=
  ((executions fills).map fun (fillId, fill) =>
    g (((corrections fills).lookup fillId).getD fill)).sum

def effectiveCash (fills : List Fill) : ℚ := effectiveTotal (fun fill => fillCash (some fill)) fills

section Totals

variable {fills : List Fill} {fill c : Fill} {asOf : Instant} {fillId : String}
  (h : SingleCorrections fills)

include h in
theorem SingleCorrections.recorded (asOf : Instant) :
    SingleCorrections (recordedFills asOf fills) := by
  constructor
  case ids => exact h.ids.sublist (filter_sublist.map _)
  case once =>
    intro fill hfill horiginal c hc c' hc'
    exact h.once fill (mem_of_mem_filter hfill) horiginal c
      (mem_of_mem_filter hc) c' (mem_of_mem_filter hc')

include h in
theorem SingleCorrections.executions_eq :
    executions fills = (fills.filter (·.fillKind = .execution)).map fun fill =>
      (fill.fillId, fill) := by
  refine dictOf_eq ?_
  unfold Lib.keys
  rw [map_map]
  exact h.ids.sublist (filter_sublist.map _)

theorem execution_iff : fill.fillKind = .execution ↔ fill.correctionOf = none := by
  unfold Fill.correctionOf
  cases fill.fillKind <;> simp

theorem mem_correction_items : (fillId, c) ∈ fills.filterMap (fun fill =>
        fill.correctionOf.map fun fillId => (fillId, fill))
      ↔ c ∈ fills ∧ c.correctionOf = some fillId := by
  rw [mem_filterMap]
  constructor
  · rintro ⟨fill, hfill, heq⟩
    obtain ⟨target, htarget, hpair⟩ := Option.map_eq_some_iff.mp heq
    obtain ⟨rfl, rfl⟩ := Prod.mk.inj hpair
    exact ⟨hfill, htarget⟩
  · rintro ⟨hc, htarget⟩
    exact ⟨c, hc, by rw [htarget]; rfl⟩

include h in
theorem SingleCorrections.lookup_some (hfill : fill ∈ fills)
    (horiginal : fill.correctionOf = none) (hc : c ∈ fills)
    (htarget : c.correctionOf = some fill.fillId) :
    (corrections fills).lookup fill.fillId = some c := by
  refine lookup_dictOf (mem_correction_items.mpr ⟨hc, htarget⟩) fun c' hc' => ?_
  obtain ⟨hmem, htarget'⟩ := mem_correction_items.mp hc'
  exact h.once fill hfill horiginal c' hmem c hc htarget' htarget

theorem lookup_none (h : ∀ c ∈ fills, c.correctionOf ≠ some fillId) :
    (corrections fills).lookup fillId = none := by
  refine lookup_dictOf_none fun hkey => ?_
  obtain ⟨⟨key, c⟩, hitem, rfl⟩ := mem_map.mp hkey
  obtain ⟨hc, htarget⟩ := mem_correction_items.mp hitem
  exact h c hc htarget

include h in
theorem SingleCorrections.lookup_recorded (hfill : fill ∈ fills)
    (horiginal : fill.correctionOf = none) (hrecorded : fill.recordedAt ≤ asOf) :
    (corrections (recordedFills asOf fills)).lookup fill.fillId
      = ((corrections fills).lookup fill.fillId).filter (·.recordedAt ≤ asOf) := by
  have hmem : fill ∈ recordedFills asOf fills :=
    mem_filter.mpr ⟨hfill, decide_eq_true hrecorded⟩
  by_cases hcorrected : ∃ c ∈ fills, c.correctionOf = some fill.fillId
  case neg =>
    push Not at hcorrected
    have hnone : ∀ c ∈ recordedFills asOf fills, c.correctionOf ≠ some fill.fillId :=
      fun c hc => hcorrected c (mem_of_mem_filter hc)
    rw [lookup_none hcorrected, lookup_none hnone]
    rfl
  obtain ⟨c, hc, htarget⟩ := hcorrected
  rw [h.lookup_some hfill horiginal hc htarget]
  by_cases hearly : c.recordedAt ≤ asOf
  · have hcmem : c ∈ recordedFills asOf fills := mem_filter.mpr ⟨hc, decide_eq_true hearly⟩
    rw [(h.recorded asOf).lookup_some hmem horiginal hcmem htarget,
      Option.filter_some, if_pos (decide_eq_true hearly)]
  · have hnone : ∀ c' ∈ recordedFills asOf fills, c'.correctionOf ≠ some fill.fillId := by
      intro c' hc' htarget'
      obtain ⟨hc'mem, hrecorded'⟩ := mem_filter.mp hc'
      rw [h.once fill hfill horiginal c' hc'mem c hc htarget' htarget] at hrecorded'
      exact hearly (of_decide_eq_true hrecorded')
    rw [lookup_none hnone, Option.filter_some, if_neg (by simpa using hearly)]

/-- The Fill that counted at the observation is the one among those recorded by
then. -/
theorem atObservation_eq (hrecorded : fill.recordedAt ≤ asOf) (correction : Option Fill) :
    atObservation asOf fill correction
      = some ((correction.filter (·.recordedAt ≤ asOf)).getD fill) := by
  unfold atObservation
  rw [if_neg (not_lt.mpr hrecorded)]
  cases correction with
  | none => rfl
  | some c =>
    rw [Option.filter_some]
    by_cases hearly : c.recordedAt ≤ asOf
    · simp [hearly]
    · simp [hearly]

include h in
/-- The revisions add up to a difference of totals. -/
theorem SingleCorrections.sum_revisions {M : Type} [AddCommGroup M] (asOf : Instant)
    {g : Option Fill → M}
    (hnone : g none = 0) :
    ((effectiveFillRevisions fills asOf).map fun (current, observed) =>
        g (some current) - g observed).sum
      = effectiveTotal (fun fill => g (some fill)) fills
        - effectiveTotal (fun fill => g (some fill)) (recordedFills asOf fills) := by
  -- what has not moved counts nothing
  refine (sum_revisions_eq_executions fills asOf
    (h := fun current observed => g (some current) - g observed)
    fun _ => sub_self _).trans ?_
  refine (Multiset.sum_map_sub (m := Multiset.ofList (executions fills))).trans ?_
  refine congrArg₂ (· - ·) rfl ?_
  change ((executions fills).map _).sum = _
  -- the executions recorded by then, each with the correction recorded by then
  unfold effectiveTotal
  rw [h.executions_eq, (h.recorded asOf).executions_eq, map_map, map_map]
  have hsub : ∀ items : List Fill, (∀ fill ∈ items, fill ∈ fills) →
      ((items.filter (·.fillKind = .execution)).map fun fill =>
          g (atObservation asOf fill ((corrections fills).lookup fill.fillId))).sum
        = (((recordedFills asOf items).filter (·.fillKind = .execution)).map
            fun fill => g (some (((corrections (recordedFills asOf fills)).lookup
              fill.fillId).getD fill))).sum := by
    intro items hitems
    induction items with
    | nil => rfl
    | cons fill items ih =>
      have hrest := ih fun item hitem => hitems item (mem_cons_of_mem fill hitem)
      unfold recordedFills at hrest ⊢
      by_cases hkind : fill.fillKind = .execution
      · rw [filter_cons_of_pos (by simpa using hkind), map_cons, sum_cons, hrest]
        by_cases hrecorded : fill.recordedAt ≤ asOf
        · have hfill := hitems fill mem_cons_self
          rw [filter_cons_of_pos (by simpa using hrecorded),
            filter_cons_of_pos (by simpa using hkind), map_cons,
            sum_cons, atObservation_eq hrecorded,
            ← h.lookup_recorded hfill (execution_iff.mp hkind) hrecorded]
          rfl
        · rw [filter_cons_of_neg (by simpa using hrecorded)]
          have hlate : atObservation asOf fill ((corrections fills).lookup fill.fillId)
              = none := if_pos (not_le.mp hrecorded)
          rw [hlate, hnone, zero_add]
      · rw [filter_cons_of_neg (by simpa using hkind), hrest]
        by_cases hrecorded : fill.recordedAt ≤ asOf
        · rw [filter_cons_of_pos (by simpa using hrecorded),
            filter_cons_of_neg (by simpa using hkind)]
        · rw [filter_cons_of_neg (by simpa using hrecorded)]
  exact hsub fills fun _ h => h

end Totals

-- ==== the observations

/-- What is unobserved of a total, over all observation times. -/
structure Telescopes {M : Type} [AddCommGroup M] (unobserved : Ledger → Instant → M)
    (total : List Fill → M) (selected : Ledger → List Fill) (ledger : Ledger) :
    Prop where
  difference : ∀ asOf, unobserved ledger asOf
    = total (selected ledger) - total (recordedFills asOf (selected ledger))
  additive : ∀ asOf later, asOf ≤ later → unobserved ledger asOf
    = unobserved (ledger.recordedBy later) asOf + unobserved ledger later
  observed : ∀ asOf, (∀ fill ∈ selected ledger, fill.recordedAt ≤ asOf) → unobserved ledger asOf = 0

theorem strategyFills_recordedBy (ledger : Ledger) (asOf : Instant)
    (accountId : String) (side : TradeSide) (symbol : Option String) :
    (ledger.recordedBy asOf).strategyFills accountId side symbol
      = recordedFills asOf (ledger.strategyFills accountId side symbol) := by
  unfold Ledger.strategyFills recordedFills Ledger.recordedBy
  rw [filter_sortBy, filter_filter]
  congr 1
  have hfills : (ledger.fills.filter (·.fill.recordedAt ≤ asOf)).map (·.fill)
      = (ledger.fills.map (·.fill)).filter (·.recordedAt ≤ asOf) := by
    rw [filter_map]
    rfl
  rw [hfills, filter_filter]
  exact filter_congr fun fill _ => Bool.and_comm _ _

theorem recordedFills_recordedFills {asOf later : Instant} (h : asOf ≤ later) (fills : List Fill) :
    recordedFills asOf (recordedFills later fills) = recordedFills asOf fills := by
  unfold recordedFills
  rw [filter_filter]
  refine filter_congr fun fill _ => ?_
  by_cases hrecorded : fill.recordedAt ≤ asOf
  · simp [hrecorded, hrecorded.trans h]
  · simp [hrecorded]

theorem Telescopes.of_difference {M : Type} [AddCommGroup M]
    {unobserved : Ledger → Instant → M} {total : List Fill → M}
    {selected : Ledger → List Fill} {ledger : Ledger}
    (hselected : ∀ later,
      selected (ledger.recordedBy later) = recordedFills later (selected ledger))
    (h : SingleCorrections (selected ledger))
    (hdifference : ∀ ledger, SingleCorrections (selected ledger) → ∀ asOf, unobserved ledger asOf
        = total (selected ledger) - total (recordedFills asOf (selected ledger))) :
    Telescopes unobserved total selected ledger := by
  constructor
  case difference => exact hdifference ledger h
  case additive =>
    intro asOf later hle
    have hlater : SingleCorrections (selected (ledger.recordedBy later)) := by
      rw [hselected]
      exact h.recorded later
    rw [hdifference ledger h asOf, hdifference ledger h later,
      hdifference (ledger.recordedBy later) hlater asOf, hselected,
      recordedFills_recordedFills hle, add_comm, sub_add_sub_cancel]
  case observed =>
    intro asOf hall
    have heq : recordedFills asOf (selected ledger) = selected ledger :=
      filter_eq_self.mpr fun fill hfill => decide_eq_true (hall fill hfill)
    rw [hdifference ledger h asOf, heq, sub_self]

theorem effectiveTotal_quantity (fills : List Fill) :
    effectiveTotal (fun fill => fillQuantity (some fill)) fills
      = (effectiveQuantity fills : ℤ) := by
  unfold effectiveTotal effectiveQuantity
  rw [Nat.cast_list_sum, map_map]
  rfl

/-- **As-of telescoping.** Of the Fills of the Strategy trades of an account, no
execution with two corrections, the unobserved quantity and the unobserved cash are
the total of all Fills less the total of those recorded at or before the
observation; they add up over successive observations, and are zero when nothing was
recorded after the observation. -/
theorem as_of_telescoping (ledger : Ledger) (accountId : String) : (∀ symbol side,
      SingleCorrections (ledger.strategyFills accountId side (some symbol)) →
      Telescopes (fun ledger asOf =>
          unobservedEffectiveFillQuantity ledger accountId symbol side asOf)
        (fun fills => (effectiveQuantity fills : ℤ))
        (fun ledger => ledger.strategyFills accountId side (some symbol)) ledger)
    ∧ (SingleCorrections (ledger.strategyFills accountId .buy none) → Telescopes
        (fun ledger asOf => unobservedBuyFillCash ledger accountId asOf)
        effectiveCash
        (fun ledger => ledger.strategyFills accountId .buy none) ledger) := by
  constructor
  · intro symbol side h
    refine Telescopes.of_difference
      (fun later => strategyFills_recordedBy ledger later accountId side (some symbol))
      h fun ledger h asOf => ?_
    have hsum := h.sum_revisions asOf (g := fillQuantity) rfl
    rw [effectiveTotal_quantity, effectiveTotal_quantity] at hsum
    exact hsum
  · intro h
    exact Telescopes.of_difference
      (fun later => strategyFills_recordedBy ledger later accountId .buy none)
      h fun ledger h asOf => h.sum_revisions asOf (g := fillCash) rfl

def sampleCorrected (side : TradeSide) : Ledger where
  records := [{ tradeRow (sampleSellTrade "first") with side }]
  events := []
  fills :=
    [⟨soldFill 0 (Int.le_refl 0), "fill"⟩, ⟨correctedFill 1 zero_le_one, "correct"⟩]
  commands := []

/-- The correction moves what was observed by 50. -/
theorem as_of_telescoping_sample :
    unobservedEffectiveFillQuantity (sampleCorrected .sell) "account" "600000.SH" .sell 0 = -50
      ∧ unobservedBuyFillCash (sampleCorrected .buy) "account" 0 = -50
      ∧ unobservedBuyFillCash (sampleCorrected .buy) "account" 1 = 0 := by
  have hsingle : ∀ side symbol, symbol = none ∨ symbol = some "600000.SH" →
      SingleCorrections ((sampleCorrected side).strategyFills "account" side symbol) := by
    intro side symbol hsymbol
    have hfills : (sampleCorrected side).strategyFills "account" side symbol
        = (sampleCorrected .sell).fills.map (·.fill) := by
      rcases hsymbol with rfl | rfl <;> cases side <;> decide +kernel
    rw [hfills]
    constructor
    case ids => decide
    case once => decide
  have hsell := ((as_of_telescoping (sampleCorrected .sell) "account").1 "600000.SH" .sell
    (hsingle .sell _ (.inr rfl))).difference 0
  have hbuy := (as_of_telescoping (sampleCorrected .buy) "account").2 (hsingle .buy _ (.inl rfl))
  refine ⟨hsell.trans (by decide +kernel), (hbuy.difference 0).trans (by decide +kernel),
    hbuy.observed 1 (by decide +kernel)⟩

end MarketRegimeAlpha.Execution
