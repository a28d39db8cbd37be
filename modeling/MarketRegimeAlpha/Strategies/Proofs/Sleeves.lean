/-
The sleeves agree with the account.

# The effective batches

Both projections resolve corrections before anything else, each in a loop of
its own. Either loop comes to the same list: the executions, each replaced by
its correction, in the order of their occurrence (`Lib.effective`).
-/
import MarketRegimeAlpha.Lib.AverageCost
import MarketRegimeAlpha.Lib.Corrections
import MarketRegimeAlpha.Position.Proofs.Project
import MarketRegimeAlpha.Strategies.Sleeves

namespace MarketRegimeAlpha.Strategies

open Lib List

-- ==== the effective batches

section Effective

variable {batches : List FillAllocationBatch} {seen ordered effective : List FillAllocationBatch}

/-- The corrections after some of the batches. -/
structure Resolved (executions : List (String × FillAllocationBatch))
    (seen : List FillAllocationBatch)
    (corrections : List (String × FillAllocationBatch)) : Prop where
  found : ∀ key, corrections.lookup key = seen.find? (·.correctionOfFillId = some key)
  once : (seen.filterMap (·.correctionOfFillId)).Nodup
  inScope : ∀ c ∈ seen, ∀ key, c.correctionOfFillId = some key →
    ∃ original, executions.lookup key = some original
      ∧ c.accountId = original.accountId ∧ c.symbol = original.symbol
      ∧ c.side = original.side

/-- One more batch. -/
theorem Resolved.step {executions corrections corrections' : List (String × FillAllocationBatch)}
    {batch : FillAllocationBatch} (h : Resolved executions seen corrections)
    (hstep : correctionStep executions corrections batch = .ok corrections') :
    Resolved executions (seen ++ [batch]) corrections' := by
  unfold correctionStep at hstep
  cases htarget : batch.correctionOfFillId with
  | none =>
    simp only [htarget] at hstep
    cases hstep
    constructor
    case found =>
      intro key
      rw [h.found, find?_append, find?_cons_of_neg (by simp [htarget])]
      simp
    case once => simpa [filterMap_append, htarget] using h.once
    case inScope =>
      intro c hc key hkey
      rcases mem_append.mp hc with hc | hc
      · exact h.inScope c hc key hkey
      · rw [mem_singleton.mp hc, htarget] at hkey
        cases hkey
  | some target =>
    simp only [htarget] at hstep
    cases hlookup : executions.lookup target with
    | none => simp [hlookup] at hstep
    | some original =>
      simp only [hlookup, bind_ok, require_ok, pure_ok] at hstep
      obtain ⟨_, hnone, _, hscope, _, -, rfl⟩ := hstep
      rw [Option.isNone_iff_eq_none, h.found] at hnone
      constructor
      case found =>
        intro key
        rw [lookup_setItem, find?_append]
        by_cases hkey : key = target
        · subst hkey
          rw [if_pos rfl, hnone, find?_cons_of_pos (by simp [htarget])]
          rfl
        · rw [if_neg hkey, h.found, find?_cons_of_neg]
          · simp
          · simpa [htarget] using Ne.symm hkey
      case once =>
        rw [filterMap_append, filterMap_cons_some htarget, filterMap_nil]
        refine h.once.append (nodup_singleton _) ?_
        intro key hmem hkey
        rw [mem_singleton.mp hkey] at hmem
        obtain ⟨c, hc, hctarget⟩ := mem_filterMap.mp hmem
        have hno := find?_eq_none.mp hnone c hc
        exact hno (by simpa using hctarget)
      case inScope =>
        intro c hc key hkey
        rcases mem_append.mp hc with hc | hc
        · exact h.inScope c hc key hkey
        · rw [mem_singleton.mp hc] at hkey ⊢
          rw [htarget] at hkey
          cases hkey
          exact ⟨original, hlookup, hscope⟩

/-- What the resolution of the batches establishes. -/
structure EffectiveOf (batches effective : List FillAllocationBatch) : Prop where
  corrected : Corrected (·.sourceFillId) (·.correctionOfFillId) batches
  inScope : ∀ c ∈ batches, ∀ original ∈ batches, c.correctionOfFillId = some original.sourceFillId →
    c.accountId = original.accountId ∧ c.symbol = original.symbol ∧ c.side = original.side
  sorted : effective = sortBy occurredKey
    (Lib.effective (·.sourceFillId) (·.correctionOfFillId) batches)

theorem effectiveOf_ok (h : effectiveFillAllocationBatches batches = .ok effective) :
    EffectiveOf batches effective := by
  simp only [effectiveFillAllocationBatches, bind_ok, require_ok, pure_ok] at h
  obtain ⟨_, hids, corrections, hloop, heffective⟩ := h
  have hperm := sortBy_perm recordedKey batches
  generalize hordered : sortBy recordedKey batches = ordered at *
  have hexecutions : executionsOf ordered
      = (originals (·.correctionOfFillId) ordered).map fun batch =>
        (batch.sourceFillId, batch) := by
    refine dictOf_eq ?_
    unfold Lib.keys
    rw [map_map]
    exact hids.sublist (filter_sublist.map _)
  have hresolved : Resolved (executionsOf ordered) ordered corrections := by
    have hinv := foldlM_inv (I := fun rest corrections => ∃ seen, seen ++ rest = ordered
        ∧ Resolved (executionsOf ordered) seen corrections)
      (fun batch rest corrections corrections' hI hstep => by
        obtain ⟨seen, hsplit, hseen⟩ := hI
        exact ⟨seen ++ [batch], by simpa using hsplit, hseen.step hstep⟩)
      ⟨[], rfl, ⟨fun _ => rfl, nodup_nil, fun _ h => absurd h not_mem_nil⟩⟩ hloop
    obtain ⟨seen, hsplit, hseen⟩ := hinv
    rw [append_nil] at hsplit
    exact hsplit ▸ hseen
  have hlookup : ∀ {key original}, (executionsOf ordered).lookup key = some original →
      original ∈ ordered ∧ original.sourceFillId = key ∧ original.correctionOfFillId = none := by
    intro key original hfind
    rw [hexecutions, lookup_map_self] at hfind
    have hmem := mem_originals.mp (mem_of_find?_eq_some hfind)
    exact ⟨hmem.1, by simpa using find?_some hfind, hmem.2⟩
  have hcorrected : Corrected (·.sourceFillId) (·.correctionOfFillId)
      ordered := by
    constructor
    case ids => exact hids
    case once => exact hresolved.once
    case known =>
      intro c hc key hkey
      obtain ⟨original, hfind, -⟩ := hresolved.inScope c hc key hkey
      exact ⟨original, hlookup hfind⟩
  constructor
  case corrected => exact hcorrected.perm hperm
  case inScope =>
    intro c hc original horiginal htarget
    obtain ⟨other, hfind, hscope⟩ := hresolved.inScope c (hperm.mem_iff.mpr hc) _ htarget
    obtain ⟨hmem, hid, -⟩ := hlookup hfind
    have heq := inj_on_of_nodup_map hids hmem (hperm.mem_iff.mpr horiginal) hid
    rw [← heq]
    exact hscope
  case sorted =>
    rw [← heffective, hexecutions, map_map]
    have hmap : (originals (·.correctionOfFillId) ordered).map
        ((fun item : String × FillAllocationBatch =>
          (corrections.lookup item.1).getD item.2)
          ∘ fun batch => (batch.sourceFillId, batch))
        = Lib.effective (·.sourceFillId) (·.correctionOfFillId) ordered :=
      map_congr_left fun batch _ =>
        congrArg (Option.getD · batch) (hresolved.found batch.sourceFillId)
    refine (congrArg _ hmap).trans ?_
    refine sortBy_eq_of_perm (effective_perm hcorrected hperm) ?_
    have hids' := effective_ids hcorrected
    refine Nodup.of_map (fun key => (ofLex key).2) ?_
    rw [map_map]
    exact hids'

end Effective

-- ==== the allocations

/-- Price plus fee per share. -/
def buyUnitCost (batch : FillAllocationBatch) : ℚ := batch.price + batch.fees / batch.quantity

def allocatedTo (key : SleeveKey) (batch : FillAllocationBatch) : Nat :=
  ((batch.allocations.filter fun allocation =>
    sleeveKey (batch, allocation) = key).map (·.allocatedQuantity)).sum

def buys (batches : List FillAllocationBatch) : List FillAllocationBatch :=
  batches.filter (·.side = .buy)

def sells (batches : List FillAllocationBatch) : List FillAllocationBatch :=
  batches.filter (·.side = .sell)

def boughtFor (key : SleeveKey) (batches : List FillAllocationBatch) : Nat :=
  ((buys batches).map (allocatedTo key)).sum

def soldFrom (key : SleeveKey) (batches : List FillAllocationBatch) : Nat :=
  ((sells batches).map (allocatedTo key)).sum

/-- The batches of an account in a symbol. -/
def inScope (accountId symbol : String) (batches : List FillAllocationBatch) :
    List FillAllocationBatch :=
  batches.filter fun batch => batch.accountId = accountId ∧ batch.symbol = symbol

def sharesOf (batches : List FillAllocationBatch) : Nat := (batches.map (·.quantity)).sum

def buyUnitCosts (key : SleeveKey) (batches : List FillAllocationBatch) :
    List ℚ :=
  ((buys batches).filter fun batch => ∃ allocation ∈ batch.allocations,
    sleeveKey (batch, allocation) = key).map buyUnitCost

def sleeveKeysIn (accountId symbol : String) (names : List SleeveKey) :
    List SleeveKey :=
  names.filter fun key => key.accountId = accountId ∧ key.symbol = symbol

section Allocations

variable {accountId symbol : String} {names : List SleeveKey}
variable {batch : FillAllocationBatch} {batches : List FillAllocationBatch}

/-- What the sleeves of an account get of a batch is the whole batch, if it is
the account's. -/
theorem sum_allocatedTo (hnames : names.Nodup)
    (hcover : ∀ allocation ∈ batch.allocations, sleeveKey (batch, allocation) ∈ names) :
    ((sleeveKeysIn accountId symbol names).map (allocatedTo · batch)).sum
      = if batch.accountId = accountId ∧ batch.symbol = symbol
        then batch.quantity else 0 := by
  by_cases hscope : batch.accountId = accountId ∧ batch.symbol = symbol
  · rw [if_pos hscope]
    have hcover' : ∀ allocation ∈ batch.allocations, sleeveKey (batch, allocation)
          ∈ sleeveKeysIn accountId symbol names := by
      intro allocation hallocation
      refine mem_filter.mpr ⟨hcover allocation hallocation, ?_⟩
      simp [sleeveKey, hscope]
    have hperm := flatMap_filter_perm (fun allocation => sleeveKey (batch, allocation))
      (hnames.filter _) hcover'
    rw [← batch.allocated, ← (hperm.map _).sum_eq, map_flatMap,
      flatMap_def, sum_flatten, map_map]
    rfl
  · rw [if_neg hscope]
    refine sum_eq_zero_iff.mpr fun count hcount => ?_
    obtain ⟨key, hkey, rfl⟩ := mem_map.mp hcount
    have hkey := (mem_filter.mp hkey).2
    rw [decide_eq_true_eq] at hkey
    unfold allocatedTo
    rw [filter_eq_nil_iff.mpr]
    · rfl
    · intro allocation _ heq
      rw [decide_eq_true_eq] at heq
      subst heq
      exact hscope hkey

/-- What the sleeves of an account get of some batches is all that is the
account's. -/
theorem sum_sum_allocatedTo (hnames : names.Nodup)
    (hcover : ∀ batch ∈ batches, ∀ allocation ∈ batch.allocations,
      sleeveKey (batch, allocation) ∈ names) :
    ((sleeveKeysIn accountId symbol names).map fun key =>
      (batches.map (allocatedTo key)).sum).sum
      = sharesOf (inScope accountId symbol batches) := by
  induction batches with
  | nil =>
    refine sum_eq_zero_iff.mpr fun count hcount => ?_
    obtain ⟨key, -, rfl⟩ := mem_map.mp hcount
    rfl
  | cons batch batches ih =>
    have hrest := ih fun b hb => hcover b (mem_cons_of_mem _ hb)
    have hfirst := @sum_allocatedTo accountId symbol _ _ hnames (hcover batch mem_cons_self)
    simp only [map_cons, sum_cons]
    rw [sum_map_add, hfirst, hrest]
    unfold inScope sharesOf
    by_cases hscope : batch.accountId = accountId ∧ batch.symbol = symbol
    · rw [if_pos hscope, filter_cons_of_pos (by simpa using hscope)]
      rfl
    · rw [if_neg hscope, filter_cons_of_neg (by simpa using hscope)]
      simp

end Allocations

-- ==== one sleeve

/-- The allocations of some batches, in order. -/
def entriesOf (batches : List FillAllocationBatch) : List (FillAllocationBatch × FillAllocation) :=
  batches.flatMap fun batch => batch.allocations.map (batch, ·)

def moveOf (entry : FillAllocationBatch × FillAllocation) :
    AverageCost.Move ℚ :=
  match entry.1.side with
  | .buy => .add entry.2.allocatedQuantity (buyUnitCost entry.1)
  | .sell => .take entry.2.allocatedQuantity

def movesFor (key : SleeveKey) (batch : FillAllocationBatch) : List (AverageCost.Move ℚ) :=
  (batch.allocations.filter fun allocation =>
    sleeveKey (batch, allocation) = key).map fun allocation => moveOf (batch, allocation)

def sellExceeds : Raised := .valueError "allocated SELL exceeds Strategy Sleeve quantity"

structure Holds (versionId : String) (state : SleeveState) (pool : AverageCost.Pool ℚ) : Prop where
  version : state.versionReference.artifactId = versionId
  quantity : state.quantity = pool.units
  cost : state.cost = pool.worth
  allocations : state.allocationIds ≠ []
  fills : state.fillIds ≠ []

def Pooled (versionId : String) : Option SleeveState → AverageCost.Pool ℚ → Prop
  | none, pool => pool = AverageCost.empty
  | some state, pool => Holds versionId state pool

section OneSleeve

variable {versionId : String} {state state' : Option SleeveState} {pool : AverageCost.Pool ℚ}
variable {entry : FillAllocationBatch × FillAllocation}
  {entries : List (FillAllocationBatch × FillAllocation)} {e : Raised}

theorem pooled_none : Pooled versionId none AverageCost.empty := rfl

variable (h : Pooled versionId state pool)

include h in
theorem Pooled.getD (reference : RuntimeArtifactReference) :
    (state.getD ⟨reference, 0, 0, [], []⟩).quantity = pool.units
      ∧ (state.getD ⟨reference, 0, 0, [], []⟩).cost = pool.worth
      ∧ (reference.artifactId = versionId →
        (state.getD ⟨reference, 0, 0, [], []⟩).versionReference.artifactId = versionId) := by
  cases state with
  | none =>
    obtain rfl : pool = AverageCost.empty := h
    exact ⟨rfl, rfl, fun hversion => hversion⟩
  | some state => exact ⟨h.quantity, h.cost, fun _ => h.version⟩

include h in
/-- A step of a sleeve is a move of its pool. -/
theorem onItem_ok (hentry : entry.2.strategyVersionReference.artifactId = versionId)
    (hstep : onItem sleeveStep state entry = .ok state') :
    ∃ pool', AverageCost.move pool (moveOf entry) = some pool' ∧ Pooled versionId state' pool' := by
  obtain ⟨batch, allocation⟩ := entry
  simp only [onItem, bind_ok, pure_ok] at hstep
  obtain ⟨next, hnext, rfl⟩ := hstep
  obtain ⟨hquantity, hcost, hversion⟩ := h.getD allocation.strategyVersionReference
  unfold sleeveStep moveOf at *
  cases hside : batch.side with
  | buy =>
    simp only [hside] at hnext ⊢
    cases hnext
    refine ⟨_, rfl, hversion hentry, ?_, ?_, by simp, by simp⟩
    · dsimp only
      rw [hquantity]
      push_cast
      ring
    · dsimp only
      rw [hcost]
      unfold buyUnitCost
      ring
  | sell =>
    simp only [hside, bind_ok, require_ok, pure_ok] at hnext ⊢
    obtain ⟨_, hle, rfl⟩ := hnext
    have hunits : allocation.allocatedQuantity ≤ pool.units := by omega
    refine ⟨_, if_pos hunits, hversion hentry, ?_, ?_, by simp, by simp⟩
    · dsimp only
      omega
    · dsimp only
      rw [hquantity, hcost]
      have hleft : (((pool.units : Int) - (allocation.allocatedQuantity : Int) : Int) : ℚ)
          = ((pool.units - allocation.allocatedQuantity : Nat) : ℚ) := by
        push_cast [Nat.cast_sub hunits]
        ring
      rw [hleft]
      by_cases hzero : pool.units = 0
      · have hnone : pool.units - allocation.allocatedQuantity = 0 := by omega
        simp [hnone]
      · rw [if_neg (by exact_mod_cast hzero)]
        norm_cast

include h in
theorem onItem_error (hstep : onItem sleeveStep state entry = .error e) :
    e = sellExceeds ∧ AverageCost.move pool (moveOf entry) = none := by
  obtain ⟨batch, allocation⟩ := entry
  rcases bind_error.mp hstep with hnext | ⟨next, -, hpure⟩
  · obtain ⟨hquantity, -⟩ := h.getD allocation.strategyVersionReference
    unfold sleeveStep moveOf at *
    cases hside : batch.side with
    | buy =>
      simp only [hside] at hnext
      cases hnext
    | sell =>
      simp only [hside] at hnext ⊢
      rcases bind_error.mp hnext with hrequire | ⟨_, -, hpure⟩
      · obtain ⟨hlt, rfl⟩ := require_error.mp hrequire
        exact ⟨rfl, if_neg (by omega)⟩
      · cases hpure
  · cases hpure

include h in
theorem foldlM_onItem_ok
    (hentries : ∀ entry ∈ entries, entry.2.strategyVersionReference.artifactId = versionId)
    (hrun : entries.foldlM (onItem sleeveStep) state = .ok state') :
    ∃ pool', AverageCost.run pool (entries.map moveOf) = some pool'
      ∧ Pooled versionId state' pool' := by
  induction entries generalizing state pool with
  | nil =>
    cases hrun
    exact ⟨pool, rfl, h⟩
  | cons entry entries ih =>
    rw [foldlM_cons, bind_ok] at hrun
    obtain ⟨next, hnext, hrest⟩ := hrun
    obtain ⟨pool', hmove, hpooled⟩ := onItem_ok h (hentries entry mem_cons_self) hnext
    obtain ⟨last, hlast, hheld⟩ := ih hpooled
      (fun e he => hentries e (mem_cons_of_mem _ he)) hrest
    exact ⟨last, AverageCost.run_cons_eq_some.mpr ⟨pool', hmove, hlast⟩, hheld⟩

include h in
theorem foldlM_onItem_error
    (hentries : ∀ entry ∈ entries, entry.2.strategyVersionReference.artifactId = versionId)
    (hrun : entries.foldlM (onItem sleeveStep) state = .error e) :
    e = sellExceeds ∧ AverageCost.run pool (entries.map moveOf) = none := by
  induction entries generalizing state pool with
  | nil => cases hrun
  | cons entry entries ih =>
    rcases bind_error.mp hrun with hfirst | ⟨next, hnext, hrest⟩
    · obtain ⟨he, hmove⟩ := onItem_error h hfirst
      refine ⟨he, ?_⟩
      unfold AverageCost.run
      rw [map_cons, foldlM_cons, hmove]
      rfl
    · obtain ⟨pool', hmove, hpooled⟩ := onItem_ok h (hentries entry mem_cons_self) hnext
      obtain ⟨he, hlast⟩ := ih hpooled (fun e he => hentries e (mem_cons_of_mem _ he)) hrest
      refine ⟨he, ?_⟩
      unfold AverageCost.run at hlast ⊢
      rw [map_cons, foldlM_cons, hmove]
      exact hlast

end OneSleeve

-- ==== all the sleeves

section States

variable {effective : List FillAllocationBatch} {key : SleeveKey}
variable {states : List (SleeveKey × SleeveState)} {batch : FillAllocationBatch}

theorem sleeveStates_eq (effective : List FillAllocationBatch) : sleeveStates effective
      = (entriesOf effective).foldlM (setItemM sleeveKey sleeveStep) [] := by
  unfold sleeveStates
  generalize ([] : List (SleeveKey × SleeveState)) = states
  induction effective generalizing states with
  | nil => rfl
  | cons batch effective ih =>
    show _ = (batch.allocations.map (batch, ·) ++ entriesOf effective).foldlM _ states
    rw [foldlM_cons, foldlM_append, foldlM_map]
    refine bind_congr fun next => ?_
    exact ih next

theorem moves_entriesOf (key : SleeveKey) (batches : List FillAllocationBatch) :
    ((entriesOf batches).filter (sleeveKey · = key)).map moveOf
      = (batches.map (movesFor key)).flatten := by
  unfold entriesOf
  rw [filter_flatMap, map_flatMap, flatMap_def]
  congr 2
  funext batch
  rw [filter_map, map_map]
  rfl

theorem movesFor_buy (h : batch.side = .buy)
    (key : SleeveKey) : movesFor key batch = (batch.allocations.filter fun allocation =>
        sleeveKey (batch, allocation) = key).map fun allocation =>
          .add allocation.allocatedQuantity (buyUnitCost batch) := by
  refine map_congr_left fun allocation _ => ?_
  unfold moveOf
  rw [h]

theorem movesFor_sell (h : batch.side = .sell)
    (key : SleeveKey) : movesFor key batch = (batch.allocations.filter fun allocation =>
        sleeveKey (batch, allocation) = key).map fun allocation =>
          .take allocation.allocatedQuantity := by
  refine map_congr_left fun allocation _ => ?_
  unfold moveOf
  rw [h]

theorem oneWay_movesFor (key : SleeveKey) (batch : FillAllocationBatch) :
    AverageCost.OneWay (movesFor key batch) := by
  cases hside : batch.side with
  | buy =>
    refine .inl fun m hm => ?_
    rw [movesFor_buy hside] at hm
    obtain ⟨allocation, -, rfl⟩ := mem_map.mp hm
    exact ⟨_, _, rfl⟩
  | sell =>
    refine .inr fun m hm => ?_
    rw [movesFor_sell hside] at hm
    obtain ⟨allocation, -, rfl⟩ := mem_map.mp hm
    exact ⟨_, rfl⟩

theorem added_movesFor (key : SleeveKey) (batch : FillAllocationBatch) :
    AverageCost.added (movesFor key batch)
      = if batch.side = .buy then allocatedTo key batch else 0 := by
  unfold AverageCost.added
  cases hside : batch.side with
  | buy =>
    rw [movesFor_buy hside, map_map]
    rfl
  | sell =>
    rw [movesFor_sell hside, map_map, if_neg nofun]
    refine sum_eq_zero_iff.mpr fun count hcount => ?_
    obtain ⟨allocation, -, rfl⟩ := mem_map.mp hcount
    rfl

theorem taken_movesFor (key : SleeveKey) (batch : FillAllocationBatch) :
    AverageCost.taken (movesFor key batch)
      = if batch.side = .sell then allocatedTo key batch else 0 := by
  unfold AverageCost.taken
  cases hside : batch.side with
  | sell =>
    rw [movesFor_sell hside, map_map]
    rfl
  | buy =>
    rw [movesFor_buy hside, map_map, if_neg nofun]
    refine sum_eq_zero_iff.mpr fun count hcount => ?_
    obtain ⟨allocation, -, rfl⟩ := mem_map.mp hcount
    rfl

theorem added_moves (key : SleeveKey) (batches : List FillAllocationBatch) :
    AverageCost.added (batches.map (movesFor key)).flatten = boughtFor key batches := by
  unfold boughtFor buys
  induction batches with
  | nil => rfl
  | cons batch batches ih =>
    rw [map_cons, flatten_cons, AverageCost.added_append, ih, added_movesFor]
    by_cases hside : batch.side = .buy
    · rw [if_pos hside, filter_cons_of_pos (by simpa using hside)]
      rfl
    · rw [if_neg hside, filter_cons_of_neg (by simpa using hside), Nat.zero_add]

theorem taken_moves (key : SleeveKey) (batches : List FillAllocationBatch) :
    AverageCost.taken (batches.map (movesFor key)).flatten = soldFrom key batches := by
  unfold soldFrom sells
  induction batches with
  | nil => rfl
  | cons batch batches ih =>
    rw [map_cons, flatten_cons, AverageCost.taken_append, ih, taken_movesFor]
    by_cases hside : batch.side = .sell
    · rw [if_pos hside, filter_cons_of_pos (by simpa using hside)]
      rfl
    · rw [if_neg hside, filter_cons_of_neg (by simpa using hside), Nat.zero_add]

/-- The pool of a sleeve goes through exactly when no first part of the
batches sells more of it than it has bought for it. -/
theorem run_isSome_iff (key : SleeveKey) (effective : List FillAllocationBatch) :
    (AverageCost.run AverageCost.empty
        (((entriesOf effective).filter (sleeveKey · = key)).map moveOf)).isSome
      ↔ ∀ n, soldFrom key (effective.take n) ≤ boughtFor key (effective.take n) := by
  rw [moves_entriesOf, AverageCost.run_flatten_isSome_iff]
  · refine forall_congr' fun n => ?_
    rw [← map_take, added_moves, taken_moves]
  · intro moves hmoves
    obtain ⟨batch, -, rfl⟩ := mem_map.mp hmoves
    exact oneWay_movesFor key batch

theorem versions_of_key (key : SleeveKey) (effective : List FillAllocationBatch) :
    ∀ entry ∈ (entriesOf effective).filter (sleeveKey · = key),
      entry.2.strategyVersionReference.artifactId = key.versionId := by
  intro entry hentry
  have hkey := of_decide_eq_true (mem_filter.mp hentry).2
  exact congrArg SleeveKey.versionId hkey

theorem lookup_states (h : sleeveStates effective = .ok states) (key : SleeveKey) :
    ∃ pool, AverageCost.run AverageCost.empty
        (((entriesOf effective).filter (sleeveKey · = key)).map moveOf)
          = some pool ∧ Pooled key.versionId (states.lookup key) pool := by
  rw [sleeveStates_eq] at h
  exact foldlM_onItem_ok pooled_none (versions_of_key key effective)
    (foldlM_setItemM_ok sleeveKey sleeveStep h key)

theorem keys_states (h : sleeveStates effective = .ok states) :
    (Lib.keys states).Nodup ∧
      ∀ key, key ∈ Lib.keys states ↔ key ∈ (entriesOf effective).map sleeveKey := by
  rw [sleeveStates_eq] at h
  obtain ⟨hnodup, hmem⟩ := keys_foldlM_setItemM sleeveKey sleeveStep h nodup_nil
  refine ⟨hnodup, fun key => ?_⟩
  rw [hmem]
  simp [Lib.keys]

/-- The loop fails exactly when some first part of the batches sells more from
a sleeve than it has bought for it, and it fails with that text. -/
theorem sleeveStates_error_iff (effective : List FillAllocationBatch)
    (e : Raised) : sleeveStates effective = .error e ↔
      e = sellExceeds ∧ ∃ n key, boughtFor key (effective.take n)
        < soldFrom key (effective.take n) := by
  constructor
  · intro h
    rw [sleeveStates_eq] at h
    obtain ⟨key, hkey⟩ := foldlM_setItemM_error sleeveKey sleeveStep h
    obtain ⟨he, hrun⟩ := foldlM_onItem_error pooled_none (versions_of_key key effective) hkey
    refine ⟨he, ?_⟩
    have hnot := mt (run_isSome_iff key effective).mpr (by rw [hrun]; simp)
    obtain ⟨n, hn⟩ := not_forall.mp hnot
    exact ⟨n, key, not_le.mp hn⟩
  · rintro ⟨rfl, n, key, hlt⟩
    cases hstates : sleeveStates effective with
    | ok states =>
      obtain ⟨pool, hpool, -⟩ := lookup_states hstates key
      have hall := (run_isSome_iff key effective).mp (by rw [hpool]; rfl)
      have hle := hall n
      omega
    | error e =>
      rw [sleeveStates_eq] at hstates
      obtain ⟨other, hother⟩ := foldlM_setItemM_error sleeveKey sleeveStep hstates
      rw [(foldlM_onItem_error pooled_none (versions_of_key other effective) hother).1]

end States

end MarketRegimeAlpha.Strategies
