/-
What the sleeves are worth to the account: their shares are the account's,
their costs are bounded by what was paid, and the position authority counts
the same shares from the same Fills.

# The position

The Fills of an account in a symbol are the batches of it, so both
projections resolve them to the same list. No sleeve ever sells what it does
not hold, so neither does the account, and the position finds every share it
is asked for (`unmatched_eq_zero`).
-/
import Mathlib.Data.Finset.Max
import MarketRegimeAlpha.Position.Proofs.Effective
import MarketRegimeAlpha.Strategies.Proofs.Sleeves

namespace MarketRegimeAlpha.Strategies

open Lib List

-- ==== what is stated

def StrategySleevePosition.key (sleeve : StrategySleevePosition) : SleeveKey where
  versionId := sleeve.strategyVersionReference.artifactId
  accountId := sleeve.accountId
  symbol := sleeve.symbol

def sleeveShares (accountId symbol : String) (sleeves : List StrategySleevePosition) : Int :=
  ((sleeves.filter fun sleeve =>
    sleeve.accountId = accountId ∧ sleeve.symbol = symbol).map
      (·.quantity)).sum

structure AllocationOf (fill : Position.Fill) (batch : FillAllocationBatch) : Prop where
  id : fill.fillId = batch.sourceFillId
  correction : fill.correctionOfFillId = batch.correctionOfFillId
  account : fill.accountId = batch.accountId
  symbol : fill.symbol = batch.symbol
  side : fill.side = batch.side
  quantity : fill.quantity = batch.quantity
  price : fill.price = batch.price
  fees : fill.fees = batch.fees
  occurred : fill.occurredAt = batch.occurredAt
  recorded : fill.recordedAt = batch.recordedAt

def fillsIn (accountId symbol : String) (fills : List Position.Fill) :
    List Position.Fill :=
  fills.filter fun fill => fill.accountId = accountId ∧ fill.symbol = symbol

structure Agree (batches effective : List FillAllocationBatch)
    (sleeves : List StrategySleevePosition) : Prop where
  /-- A version has one sleeve in an account and a symbol. -/
  distinct : (sleeves.map (·.key)).Nodup
  shares : ∀ accountId symbol, sleeveShares accountId symbol sleeves
    = (sharesOf (inScope accountId symbol (buys effective)) : Int)
      - sharesOf (inScope accountId symbol (sells effective))
  nonneg : ∀ sleeve ∈ sleeves, 0 ≤ sleeve.quantity
  average : ∀ sleeve ∈ sleeves, 0 < sleeve.quantity → ∃ average, sleeve.averageCost = some average
      ∧ ∃ least ∈ buyUnitCosts sleeve.key effective, ∃ greatest ∈ buyUnitCosts sleeve.key effective,
          (∀ cost ∈ buyUnitCosts sleeve.key effective, least ≤ cost ∧ cost ≤ greatest)
          ∧ least ≤ average ∧ average ≤ greatest
  position : ∀ fills accountId symbol asOf snapshot, List.Forall₂ AllocationOf fills batches →
    Position.project accountId symbol (fillsIn accountId symbol fills) asOf = .ok snapshot →
    sleeveShares accountId symbol sleeves = snapshot.totalQuantity

-- ==== the projected sleeves

section Projected

variable {batches effective : List FillAllocationBatch} {sleeves : List StrategySleevePosition}
variable {states : List (SleeveKey × SleeveState)} {key : SleeveKey} {state : SleeveState}
variable (hstates : sleeveStates effective = .ok states)

include hstates in
theorem holds_of_mem (hitem : (key, state) ∈ states) : ∃ pool, AverageCost.run AverageCost.empty
        (((entriesOf effective).filter (sleeveKey · = key)).map moveOf)
          = some pool ∧ Holds key.versionId state pool := by
  obtain ⟨pool, hrun, hpooled⟩ := lookup_states hstates key
  rw [(lookup_eq_some_iff (keys_states hstates).1).mpr hitem] at hpooled
  exact ⟨pool, hrun, hpooled⟩

include hstates in
/-- An item of the loop has what was bought for it, less what was sold from
it. -/
theorem quantity_of_mem (hitem : (key, state) ∈ states) :
    state.quantity + soldFrom key effective = boughtFor key effective := by
  obtain ⟨pool, hrun, hholds⟩ := holds_of_mem hstates hitem
  have hunits := AverageCost.run_units hrun
  rw [moves_entriesOf, added_moves, taken_moves] at hunits
  have hempty : (AverageCost.empty : AverageCost.Pool ℚ).units = 0 := rfl
  rw [hholds.quantity]
  omega

include hstates in
theorem postInit_sleeveOf (asOf : Position.Instant)
    (item : SleeveKey × SleeveState) (hitem : item ∈ states) :
    (sleeveOf asOf item).postInit = .ok (sleeveOf asOf item) := by
  obtain ⟨pool, -, hholds⟩ := holds_of_mem hstates hitem
  have hquantity := hholds.quantity
  unfold StrategySleevePosition.postInit
  simp only [bind_ok, require_ok, pure_ok]
  refine ⟨(), ?_, (), ?_, (), ⟨hholds.fills, hholds.allocations⟩,
    trivial⟩
  · show ¬ item.2.quantity < 0
    omega
  · show item.2.quantity = 0 ↔ (if item.2.quantity = 0 then none
      else some (item.2.cost / item.2.quantity)) = none
    by_cases hzero : item.2.quantity = 0
    · simp [hzero]
    · simp [hzero]

/-- What is projected are the items of the loop, in the order of their
keys. -/
theorem projected_ok (h : projectStrategySleeves batches = .ok sleeves) :
    ∃ effective states asOf, effectiveFillAllocationBatches batches = .ok effective
      ∧ sleeveStates effective = .ok states
      ∧ sleeves = (sortBy (fun item => sleeveOrder item.1) states).map (sleeveOf asOf) := by
  simp only [projectStrategySleeves, bind_ok] at h
  obtain ⟨effective, heffective, states, hstates, h⟩ := h
  cases effective with
  | nil =>
    cases h
    exact ⟨[], [], 0, heffective, rfl, rfl⟩
  | cons first rest =>
    refine ⟨first :: rest, states, (rest.map (·.recordedAt)).foldl max first.recordedAt, heffective,
      hstates, ?_⟩
    refine Except.ok.inj (h.symm.trans (mapM_ok_map fun item hitem => ?_))
    exact postInit_sleeveOf hstates _ item ((sortBy_perm _ _).mem_iff.mp hitem)

theorem projected_of_states (heffective : effectiveFillAllocationBatches batches = .ok effective)
    (hstates : sleeveStates effective = .ok states) :
    ∃ sleeves, projectStrategySleeves batches = .ok sleeves := by
  unfold projectStrategySleeves
  rw [heffective, ok_bind, hstates, ok_bind]
  cases effective with
  | nil => exact ⟨[], rfl⟩
  | cons first rest =>
    exact ⟨_, mapM_ok_map fun item hitem => postInit_sleeveOf hstates _ item
      ((sortBy_perm _ _).mem_iff.mp hitem)⟩

include hstates in
theorem key_sleeveOf (asOf : Position.Instant) {item : SleeveKey × SleeveState}
    (hitem : item ∈ states) : (sleeveOf asOf item).key = item.1 := by
  obtain ⟨pool, -, hholds⟩ := holds_of_mem hstates hitem
  have hversion := hholds.version
  show SleeveKey.mk item.2.versionReference.artifactId _ _ = item.1
  rw [hversion]
  rfl

include hstates in
/-- The shares of the sleeves of an account. -/
theorem sleeveShares_eq (asOf : Position.Instant) (accountId symbol : String) :
    sleeveShares accountId symbol
        ((sortBy (fun item => sleeveOrder item.1) states).map (sleeveOf asOf))
      = (sharesOf (inScope accountId symbol (buys effective)) : Int)
        - sharesOf (inScope accountId symbol (sells effective)) := by
  obtain ⟨hnodup, hkeys⟩ := keys_states hstates
  have hcover : ∀ batch ∈ effective, ∀ allocation ∈ batch.allocations,
      sleeveKey (batch, allocation) ∈ Lib.keys states := by
    intro batch hbatch allocation hallocation
    refine (hkeys _).mpr (mem_map_of_mem ?_)
    exact mem_flatMap.mpr ⟨batch, hbatch, mem_map_of_mem hallocation⟩
  have hbought := @sum_sum_allocatedTo accountId symbol _ (buys effective)
    hnodup fun batch hbatch => hcover batch (mem_of_mem_filter hbatch)
  have hsold := @sum_sum_allocatedTo accountId symbol _ (sells effective)
    hnodup fun batch hbatch => hcover batch (mem_of_mem_filter hbatch)
  have hitems : sleeveShares accountId symbol
      ((sortBy (fun item => sleeveOrder item.1) states).map (sleeveOf asOf))
      = ((states.filter fun item => item.1.accountId = accountId
        ∧ item.1.symbol = symbol).map (·.2.quantity)).sum := by
    unfold sleeveShares
    rw [filter_map, map_map]
    exact (((sortBy_perm _ states).filter _).map _).sum_eq
  have hdifference : ∀ items : List (SleeveKey × SleeveState), (∀ item ∈ items, item ∈ states) →
      (items.map (·.2.quantity)).sum = (((items.map (·.1)).map (boughtFor · effective)).sum : Int)
          - ((items.map (·.1)).map (soldFrom · effective)).sum := by
    intro items hitems
    induction items with
    | nil => rfl
    | cons item items ih =>
      have hrest := ih fun i hi => hitems i (mem_cons_of_mem _ hi)
      have hfirst := quantity_of_mem hstates (hitems item mem_cons_self)
      simp only [map_cons, sum_cons]
      omega
  have hnames : (states.filter fun item => item.1.accountId = accountId
      ∧ item.1.symbol = symbol).map (·.1)
      = sleeveKeysIn accountId symbol (Lib.keys states) := by
    unfold sleeveKeysIn Lib.keys
    rw [filter_map]
    rfl
  rw [hitems, hdifference _ fun item hitem => mem_of_mem_filter hitem,
    hnames, ← hbought, ← hsold]
  rfl

include hstates in
/-- The average cost of an open sleeve lies between the costs of the buys
allocated to it. -/
theorem average_of_mem (hitem : (key, state) ∈ states) (hopen : 0 < state.quantity) :
    ∃ least ∈ buyUnitCosts key effective, ∃ greatest ∈ buyUnitCosts key effective,
        (∀ cost ∈ buyUnitCosts key effective, least ≤ cost ∧ cost ≤ greatest)
        ∧ least ≤ state.cost / state.quantity
        ∧ state.cost / state.quantity ≤ greatest := by
  obtain ⟨pool, hrun, hholds⟩ := holds_of_mem hstates hitem
  have hunits : 0 < pool.units := by
    have hquantity := hholds.quantity
    omega
  -- a batch that brings in shares has its cost among those of the sleeve
  have hcosts : ∀ entry ∈ (entriesOf effective).filter (sleeveKey · = key),
      entry.1.side = .buy → buyUnitCost entry.1 ∈ buyUnitCosts key effective := by
    rintro ⟨batch, allocation⟩ hentry hside
    obtain ⟨hmem, hkey⟩ := mem_filter.mp hentry
    obtain ⟨other, hother, hpair⟩ := mem_flatMap.mp hmem
    obtain ⟨allocation', hallocation, heq⟩ := mem_map.mp hpair
    cases heq
    refine mem_map_of_mem (mem_filter.mpr ⟨?_, ?_⟩)
    · exact mem_filter.mpr ⟨hother, by simpa using hside⟩
    · exact decide_eq_true ⟨allocation, hallocation, of_decide_eq_true hkey⟩
  have hnonempty : (buyUnitCosts key effective).toFinset.Nonempty := by
    by_contra hempty
    have hnone : ∀ entry ∈ (entriesOf effective).filter (sleeveKey · = key),
        (moveOf entry).added = 0 := by
      intro entry hentry
      cases hside : entry.1.side with
      | buy =>
        have hmem := hcosts entry hentry hside
        exact absurd ⟨_, mem_toFinset.mpr hmem⟩ hempty
      | sell =>
        unfold moveOf
        rw [hside]
        rfl
    have hadded : AverageCost.added (((entriesOf effective).filter (sleeveKey · = key)).map moveOf)
        = 0 := by
      refine sum_eq_zero_iff.mpr fun count hcount => ?_
      obtain ⟨m, hm, rfl⟩ := mem_map.mp hcount
      obtain ⟨entry, hentry, rfl⟩ := mem_map.mp hm
      exact hnone entry hentry
    have hleft := AverageCost.run_units hrun
    have hzero : (AverageCost.empty : AverageCost.Pool ℚ).units = 0 := rfl
    omega
  obtain ⟨least, hleast, hle⟩ := Finset.exists_min_image _ id hnonempty
  obtain ⟨greatest, hgreatest, hge⟩ := Finset.exists_max_image _ id hnonempty
  have hbetween : ∀ cost ∈ buyUnitCosts key effective,
      least ≤ cost ∧ cost ≤ greatest := fun cost hcost =>
    ⟨hle cost (mem_toFinset.mpr hcost), hge cost (mem_toFinset.mpr hcost)⟩
  have hbounded : AverageCost.Bounded least greatest pool := by
    refine AverageCost.run_bounded AverageCost.bounded_empty (fun m hm => ?_) hrun
    obtain ⟨entry, hentry, rfl⟩ := mem_map.mp hm
    unfold moveOf
    cases hside : entry.1.side with
    | buy => exact hbetween _ (hcosts entry hentry hside)
    | sell => trivial
  refine ⟨least, mem_toFinset.mp hleast, greatest,
    mem_toFinset.mp hgreatest, hbetween, ?_⟩
  have haverage := hbounded.average hunits
  rw [hholds.quantity, hholds.cost]
  exact_mod_cast haverage

end Projected

-- ==== the position

section Position

variable {batches effective : List FillAllocationBatch} {states : List (SleeveKey × SleeveState)}
variable {fills : List Position.Fill} {accountId symbol : String}

/-- A position finds every share it is asked for, when no first part of its
Fills sells more than it holds and has bought. -/
theorem unmatched_eq_zero (held : Nat) (fills : List Position.Fill)
    (h : ∀ n, Position.shares (Position.sells (fills.take n))
      ≤ held + Position.shares (Position.buys (fills.take n))) :
    Position.unmatched held fills = 0 := by
  induction fills generalizing held with
  | nil => rfl
  | cons fill fills ih =>
    have hnext : ∀ n, Position.shares (Position.sells
        (fill :: fills.take n)) ≤ held + Position.shares (Position.buys
          (fill :: fills.take n)) := fun n => h (n + 1)
    cases hside : fill.side with
    | buy =>
      simp only [Position.unmatched, hside]
      refine ih _ fun n => ?_
      obtain ⟨hbuys, hsells⟩ := Position.split_buy (fills.take n) hside
      have hle := hnext n
      rw [hbuys, hsells] at hle
      simp only [Position.shares, map_cons, sum_cons] at hle ⊢
      omega
    | sell =>
      have hall : ∀ n, fill.quantity + Position.shares (Position.sells (fills.take n))
          ≤ held + Position.shares (Position.buys (fills.take n)) := by
        intro n
        obtain ⟨hbuys, hsells⟩ := Position.split_sell (fills.take n) hside
        have hle := hnext n
        rw [hbuys, hsells] at hle
        simpa [Position.shares] using hle
      have hfirst : fill.quantity ≤ held := hall 0
      simp only [Position.unmatched, hside]
      have hrest := ih (held - fill.quantity) fun n => by
        have hle := hall n
        omega
      omega

theorem exists_take_filter {α : Type} (p : α → Bool) (l : List α) (n : Nat) :
    ∃ m, (l.filter p).take n = (l.take m).filter p := by
  induction l generalizing n with
  | nil => exact ⟨0, by simp⟩
  | cons a l ih =>
    cases n with
    | zero => exact ⟨0, by simp⟩
    | succ n =>
      by_cases ha : p a = true
      · obtain ⟨m, hm⟩ := ih n
        refine ⟨m + 1, ?_⟩
        rw [filter_cons_of_pos ha, take_succ_cons, hm,
          take_succ_cons, filter_cons_of_pos ha]
      · obtain ⟨m, hm⟩ := ih (n + 1)
        refine ⟨m + 1, ?_⟩
        rw [filter_cons_of_neg ha, hm, take_succ_cons, filter_cons_of_neg ha]

/-- No first part of the batches sells more of an account's shares than it
has bought. -/
theorem scope_covered (hstates : sleeveStates effective = .ok states)
    (accountId symbol : String) (n : Nat) :
    sharesOf (inScope accountId symbol (sells (effective.take n)))
      ≤ sharesOf (inScope accountId symbol (buys (effective.take n))) := by
  obtain ⟨hnodup, hkeys⟩ := keys_states hstates
  have hcover : ∀ batch ∈ effective.take n, ∀ allocation ∈ batch.allocations,
        sleeveKey (batch, allocation) ∈ Lib.keys states := by
    intro batch hbatch allocation hallocation
    refine (hkeys _).mpr (mem_map_of_mem ?_)
    exact mem_flatMap.mpr ⟨batch, mem_of_mem_take hbatch, mem_map_of_mem hallocation⟩
  have hbought := @sum_sum_allocatedTo accountId symbol _ (buys (effective.take n)) hnodup
    fun batch hbatch => hcover batch (mem_of_mem_filter hbatch)
  have hsold := @sum_sum_allocatedTo accountId symbol _ (sells (effective.take n)) hnodup
    fun batch hbatch => hcover batch (mem_of_mem_filter hbatch)
  rw [← hbought, ← hsold]
  refine sum_le_sum fun key _ => ?_
  obtain ⟨pool, hrun, -⟩ := lookup_states hstates key
  exact (run_isSome_iff key effective).mp (by rw [hrun]; rfl) n

theorem forall₂_fillsIn (h : List.Forall₂ AllocationOf fills batches) (accountId symbol : String) :
    List.Forall₂ AllocationOf (fillsIn accountId symbol fills)
      (inScope accountId symbol batches) := by
  unfold fillsIn inScope
  induction h with
  | nil => exact .nil
  | @cons fill batch fills batches hof h ih =>
    by_cases hscope : batch.accountId = accountId ∧ batch.symbol = symbol
    · rw [filter_cons_of_pos (by simpa [hof.account, hof.symbol] using hscope),
        filter_cons_of_pos (by simpa using hscope)]
      exact .cons hof ih
    · rw [filter_cons_of_neg (by simpa [hof.account, hof.symbol] using hscope),
        filter_cons_of_neg (by simpa using hscope)]
      exact ih

theorem effective_agree (heffective : EffectiveOf batches effective)
    (h : List.Forall₂ AllocationOf fills batches) {effective' : List Position.Fill}
    (heffective' : Position.effectiveFills (fillsIn accountId symbol fills) = .ok effective') :
    List.Forall₂ AllocationOf effective' (inScope accountId symbol effective) := by
  have hscope : ∀ c ∈ batches, ∀ original ∈ batches,
      c.correctionOfFillId = some original.sourceFillId →
      decide (c.accountId = accountId ∧ c.symbol = symbol)
        = decide (original.accountId = accountId ∧ original.symbol = symbol) := by
    intro c hc original horiginal htarget
    obtain ⟨haccount, hsymbol, -⟩ := heffective.inScope c hc original horiginal htarget
    rw [haccount, hsymbol]
  have hbatches := heffective.corrected.filter
    (p := fun batch => batch.accountId = accountId ∧ batch.symbol = symbol)
    hscope
  have hfills := forall₂_fillsIn h accountId symbol
  have hcorrected : Corrected (·.fillId) Position.Fill.correctionOfFillId
      (fillsIn accountId symbol fills) :=
    .of_forall₂ (fun _ _ hof => hof.id) (fun _ _ hof => hof.correction) hfills hbatches
  rw [Position.effectiveFills_eq hcorrected heffective', heffective.sorted]
  unfold inScope
  rw [filter_sortBy, ← effective_filter heffective.corrected hscope]
  refine forall₂_sortBy (fun fill batch hof => ?_)
    (forall₂_effective (fun _ _ hof => hof.id) (fun _ _ hof => hof.correction) hfills)
  show toLex (fill.occurredAt, fill.fillId) = toLex (batch.occurredAt, batch.sourceFillId)
  rw [hof.occurred, hof.id]

theorem shares_agree {fills : List Position.Fill} {batches : List FillAllocationBatch}
    (h : List.Forall₂ AllocationOf fills batches) :
    Position.shares (Position.buys fills) = sharesOf (buys batches)
      ∧ Position.shares (Position.sells fills) = sharesOf (sells batches) := by
  unfold Position.shares Position.buys Position.sells sharesOf buys sells
  induction h with
  | nil => exact ⟨rfl, rfl⟩
  | @cons fill batch fills batches hof h ih =>
    obtain ⟨hbuys, hsells⟩ := ih
    cases hside : batch.side with
    | buy =>
      have hfill : fill.side = .buy := hof.side.trans hside
      constructor
      · simp [hside, hfill, hof.quantity, hbuys]
      · simpa [hside, hfill] using hsells
    | sell =>
      have hfill : fill.side = .sell := hof.side.trans hside
      constructor
      · simpa [hside, hfill] using hbuys
      · simp [hside, hfill, hof.quantity, hsells]

/-- The position has the shares of the account's batches. -/
theorem position_shares (heffective : EffectiveOf batches effective)
    (hstates : sleeveStates effective = .ok states)
    (h : List.Forall₂ AllocationOf fills batches)
    {asOf : Position.Instant} {snapshot : Position.PositionSnapshot}
    (hproject : Position.project accountId symbol
      (fillsIn accountId symbol fills) asOf = .ok snapshot) :
    (snapshot.totalQuantity : Int) = sharesOf (inScope accountId symbol (buys effective))
        - sharesOf (inScope accountId symbol (sells effective)) := by
  obtain ⟨effective', heffective', hconserved⟩ := Position.project_conserves _ _ _ _ _ hproject
  have hagree := effective_agree heffective h heffective'
  have hcomm : ∀ batches, buys (inScope accountId symbol batches)
      = inScope accountId symbol (buys batches)
      ∧ sells (inScope accountId symbol batches)
      = inScope accountId symbol (sells batches) := by
    intro batches
    unfold buys sells inScope
    simp only [filter_filter, Bool.and_comm, and_self]
  have hfound : Position.unmatched 0 effective' = 0 := by
    refine unmatched_eq_zero 0 effective' fun n => ?_
    obtain ⟨hbuys, hsells⟩ := shares_agree (forall₂_take n hagree)
    obtain ⟨m, hm⟩ := exists_take_filter (fun batch =>
      batch.accountId = accountId ∧ batch.symbol = symbol) effective n
    have htake : (inScope accountId symbol effective).take n
        = inScope accountId symbol (effective.take m) := hm
    obtain ⟨hb, hs⟩ := hcomm (effective.take m)
    rw [hbuys, hsells, htake, hb, hs, Nat.zero_add]
    exact scope_covered hstates accountId symbol m
  obtain ⟨hbuys, hsells⟩ := shares_agree hagree
  obtain ⟨hb, hs⟩ := hcomm effective
  rw [hb] at hbuys
  rw [hs] at hsells
  have hquantity := hconserved.quantity
  omega

end Position

-- ==== the sale that fails

section Failing

variable {batches batches' : List FillAllocationBatch}

theorem effective_ne_sellExceeds : effectiveFillAllocationBatches batches ≠ .error sellExceeds := by
  intro h
  rcases bind_error.mp h with h | ⟨_, -, h⟩
  · have htext := (require_error.mp h).2
    exact absurd htext (by decide)
  rcases bind_error.mp h with h | ⟨_, -, h⟩
  · obtain ⟨batch, -, corrections, hstep⟩ := foldlM_error h
    unfold correctionStep at hstep
    cases htarget : batch.correctionOfFillId with
    | none =>
      simp only [htarget] at hstep
      cases hstep
    | some target =>
      simp only [htarget] at hstep
      split at hstep
      · -- the two texts differ in their first letter
        have htext := congrArg (fun raised : Raised =>
          raised.message.toList.head?) (Except.error.inj hstep)
        simp [Raised.message, sellExceeds] at htext
      · rcases bind_error.mp hstep with h | ⟨_, -, h⟩
        · exact absurd (require_error.mp h).2 (by decide)
        rcases bind_error.mp h with h | ⟨_, -, h⟩
        · exact absurd (require_error.mp h).2 (by decide)
        rcases bind_error.mp h with h | ⟨_, -, h⟩
        · exact absurd (require_error.mp h).2 (by decide)
        · cases h
  · cases h

/-- The projection refuses a sale exactly when some first part of the
effective batches sells more from a sleeve than it has bought for it. -/
theorem project_error_iff (batches : List FillAllocationBatch) :
    projectStrategySleeves batches = .error sellExceeds ↔
      ∃ effective, effectiveFillAllocationBatches batches = .ok effective
        ∧ ∃ n key, boughtFor key (effective.take n) < soldFrom key (effective.take n) := by
  constructor
  · intro h
    cases heffective : effectiveFillAllocationBatches batches with
    | error e =>
      unfold projectStrategySleeves at h
      rw [heffective] at h
      cases h
      exact absurd heffective effective_ne_sellExceeds
    | ok effective =>
      refine ⟨effective, rfl, ?_⟩
      cases hstates : sleeveStates effective with
      | ok states =>
        obtain ⟨sleeves, hok⟩ := projected_of_states heffective hstates
        rw [hok] at h
        cases h
      | error e => exact ((sleeveStates_error_iff effective e).mp hstates).2
  · rintro ⟨effective, heffective, hexceeds⟩
    have hstates := (sleeveStates_error_iff effective sellExceeds).mpr ⟨rfl, hexceeds⟩
    unfold projectStrategySleeves
    rw [heffective, ok_bind, hstates]
    rfl

theorem effective_batches_perm (h : batches.Perm batches') :
    effectiveFillAllocationBatches batches = effectiveFillAllocationBatches batches' := by
  by_cases hids : (batches.map (·.sourceFillId)).Nodup
  · unfold effectiveFillAllocationBatches
    have hkeys : (batches.map recordedKey).Nodup := by
      refine Nodup.of_map (fun key => (ofLex key).2) ?_
      rw [map_map]
      exact hids
    rw [sortBy_eq_of_perm h hkeys]
  · have hduplicate : ∀ {l : List FillAllocationBatch}, batches.Perm l →
        effectiveFillAllocationBatches l
          = .error (.valueError "duplicate Fill Allocation Batch") := by
      intro l hperm
      have hnot : ¬ ((sortBy recordedKey l).map (·.sourceFillId)).Nodup := by
        intro hnodup
        refine hids (Perm.nodup_iff ?_ |>.mp hnodup)
        exact ((sortBy_perm recordedKey l).trans hperm.symm).map _
      exact bind_error.mpr (.inl (if_neg hnot))
    rw [hduplicate (.refl _), hduplicate h]

end Failing

-- ==== the sleeves

/-- The sleeves agree with the account, they are refused exactly when a sleeve
is asked for more than it holds, and the order of the batches does not
matter. -/
theorem sleeves_agree (batches : List FillAllocationBatch) :
    (∀ sleeves, projectStrategySleeves batches = .ok sleeves →
      ∃ effective, effectiveFillAllocationBatches batches = .ok effective
        ∧ Agree batches effective sleeves)
    ∧ (projectStrategySleeves batches = .error sellExceeds ↔
      ∃ effective, effectiveFillAllocationBatches batches = .ok effective
        ∧ ∃ n key, boughtFor key (effective.take n) < soldFrom key (effective.take n))
    ∧ ∀ batches', batches.Perm batches' →
      projectStrategySleeves batches = projectStrategySleeves batches' := by
  refine ⟨fun sleeves h => ?_, project_error_iff batches, fun batches' h => ?_⟩
  · obtain ⟨effective, states, asOf, heffective, hstates, rfl⟩ := projected_ok h
    refine ⟨effective, heffective, ?_⟩
    have hmem : ∀ item ∈ sortBy (fun item => sleeveOrder item.1) states,
        item ∈ states := fun item hitem =>
      (sortBy_perm _ _).mem_iff.mp hitem
    constructor
    case distinct =>
      have hkeys : ((sortBy (fun item => sleeveOrder item.1) states).map
          (sleeveOf asOf)).map (·.key)
          = (sortBy (fun item => sleeveOrder item.1) states).map (·.1) := by
        rw [map_map]
        exact map_congr_left fun item hitem => key_sleeveOf hstates asOf (hmem item hitem)
      rw [hkeys]
      exact ((sortBy_perm _ states).map _).nodup_iff.mpr (keys_states hstates).1
    case shares => exact sleeveShares_eq hstates asOf
    case nonneg =>
      intro sleeve hsleeve
      obtain ⟨item, hitem, rfl⟩ := mem_map.mp hsleeve
      obtain ⟨pool, -, hholds⟩ := holds_of_mem hstates (hmem item hitem)
      show 0 ≤ item.2.quantity
      rw [hholds.quantity]
      exact Int.natCast_nonneg _
    case average =>
      intro sleeve hsleeve hopen
      obtain ⟨item, hitem, rfl⟩ := mem_map.mp hsleeve
      have hopen' : 0 < item.2.quantity := hopen
      rw [key_sleeveOf hstates asOf (hmem item hitem)]
      refine ⟨item.2.cost / item.2.quantity, if_neg (ne_of_gt hopen'), ?_⟩
      exact average_of_mem hstates (hmem item hitem) hopen'
    case position =>
      intro fills accountId symbol asOf' snapshot hfills hproject
      rw [sleeveShares_eq hstates asOf accountId symbol]
      exact (position_shares (effectiveOf_ok heffective) hstates hfills hproject).symm
  · unfold projectStrategySleeves
    rw [effective_batches_perm h]

def sampleAllocation (allocationId fillId versionId : String)
    (allocatedQuantity : Nat) (hquantity : 0 < allocatedQuantity) :
    FillAllocation where
  allocationId := allocationId
  fillReference := ⟨"MANUAL_FILL", fillId, "hash"⟩
  strategyVersionReference := ⟨"STRATEGY_VERSION", versionId, "hash"⟩
  proposalReference := ⟨"STRATEGY_PROPOSAL", "proposal", "hash"⟩
  allocatedQuantity := allocatedQuantity
  quantity_positive := hquantity

def sampleBatch (fill : Position.Fill) (allocations : List FillAllocation)
    (hsorted : (allocations.map (·.allocationId)).Pairwise (· < ·))
    (hallocated : (allocations.map (·.allocatedQuantity)).sum = fill.quantity)
    (hlineage : ∀ item ∈ allocations, item.fillReference.artifactId = fill.fillId
        ∧ item.fillReference.contentHash = "hash") :
    FillAllocationBatch where
  sourceFillId := fill.fillId
  sourceFillHash := "hash"
  correctionOfFillId := fill.correctionOfFillId
  accountId := fill.accountId
  symbol := fill.symbol
  side := fill.side
  quantity := fill.quantity
  price := fill.price
  fees := fill.fees
  occurredAt := fill.occurredAt
  recordedAt := fill.recordedAt
  allocations := allocations
  quantity_positive := fill.quantity_positive
  price_positive := fill.price_positive
  fees_nonneg := fill.fees_nonneg
  sorted := hsorted
  allocated := hallocated
  lineage := hlineage

def boughtFill : Position.Fill :=
  Position.sampleFill "b1" .buy 100 10 0 .execution Position.hundred_shares Position.price_ten
    (Position.FillKind.execution_ne _)

def soldFill : Position.Fill :=
  Position.sampleFill "s1" .sell 30 12 3 .execution (by decide) Position.price_twelve
    (Position.FillKind.execution_ne _)

def sampleFills : List Position.Fill := [boughtFill, soldFill]

def sampleBought : FillAllocationBatch :=
  sampleBatch boughtFill
    [sampleAllocation "a1" "b1" "v1" 60 (Nat.succ_pos 59),
      sampleAllocation "a2" "b1" "v2" 40 (by decide)]
    (by decide) (by decide) (by decide +kernel)

def sampleSold (versionId : String) : FillAllocationBatch :=
  sampleBatch soldFill
    [sampleAllocation "a3" "s1" versionId 30 (by decide)]
    (pairwise_singleton _ _) (by simp [sampleAllocation, soldFill, Position.sampleFill])
    (by simp [sampleAllocation, soldFill, Position.sampleFill])

theorem sleeves_agree_sample : ∃ sleeves effective snapshot,
    projectStrategySleeves [sampleBought, sampleSold "v1"] = .ok sleeves
    ∧ effectiveFillAllocationBatches [sampleBought, sampleSold "v1"] = .ok effective
    ∧ Agree [sampleBought, sampleSold "v1"] effective sleeves
    ∧ Position.project "account" "600000.SH"
      (fillsIn "account" "600000.SH" sampleFills) 10 = .ok snapshot
    ∧ sleeveShares "account" "600000.SH" sleeves = snapshot.totalQuantity
    ∧ projectStrategySleeves [sampleBought, sampleSold "v1"]
      = projectStrategySleeves [sampleSold "v1", sampleBought]
    ∧ projectStrategySleeves [sampleBought, sampleSold "v3"] = .error sellExceeds := by
  obtain ⟨hagree, -, hperm⟩ := sleeves_agree [sampleBought, sampleSold "v1"]
  obtain ⟨sleeves, hsleeves⟩ := exists_of_isOk
    (x := projectStrategySleeves [sampleBought, sampleSold "v1"])
    (by decide +kernel)
  obtain ⟨snapshot, hsnapshot⟩ := exists_of_isOk (x := Position.project "account" "600000.SH"
      (fillsIn "account" "600000.SH" sampleFills) 10) (by decide +kernel)
  obtain ⟨effective, heffective, hsound⟩ := hagree sleeves hsleeves
  have hfills : List.Forall₂ AllocationOf sampleFills [sampleBought, sampleSold "v1"] := by
    refine .cons ?_ (.cons ?_ .nil)
    · constructor <;> rfl
    · constructor <;> rfl
  refine ⟨sleeves, effective, snapshot, hsleeves, heffective, hsound,
    hsnapshot, hsound.position _ _ _ _ _ hfills hsnapshot,
    hperm _ (.swap _ _ _), ?_⟩
  refine (sleeves_agree [sampleBought, sampleSold "v3"]).2.1.mpr
    ⟨[sampleBought, sampleSold "v3"], rfl, 2,
      ⟨"v3", "account", "600000.SH"⟩, by decide +kernel⟩

end MarketRegimeAlpha.Strategies
