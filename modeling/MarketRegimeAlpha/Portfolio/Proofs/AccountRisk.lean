/-
What the complete-account Portfolio proposes, and what its Risk approves.

# The deltas

Each allocation has one delta, `deltaOf`, and each delta is of one
allocation: the Theses and the allocations have the same identities, all
of them distinct. `Applying` is what the loop over the deltas keeps: the
symbols still to come and those that no delta names are as they were,
and those that have passed are at their target.
-/
import Mathlib.Tactic.Positivity
import MarketRegimeAlpha.Portfolio.AccountAuthority

namespace MarketRegimeAlpha.Portfolio

open Lib List

variable {account : AuthoritativeAccountPortfolioSnapshot} {createdAt : Instant}

-- ==== the account's own

def availableOf (account : AuthoritativeAccountPortfolioSnapshot) (symbol : String) : Int :=
  ((account.allPositions.find? (·.symbol = symbol)).map
    (·.availableQuantity)).getD 0

def quantityOf (account : AuthoritativeAccountPortfolioSnapshot) (symbol : String) : Int :=
  ((account.allPositions.find? (·.symbol = symbol)).map
    (·.totalQuantity)).getD 0

theorem symbols_nodup : (account.allPositions.map (·.symbol)).Nodup := by
  rw [account.positions_sorted]
  exact (sortedDistinct_pairwise _).nodup

theorem current_eq : account.current
    = account.allPositions.map fun item => (item.symbol, item) := by
  refine dictOf_eq ?_
  unfold Lib.keys
  rw [map_map]
  exact symbols_nodup

def deltaOf (account : AuthoritativeAccountPortfolioSnapshot)
    (a : ThesisAllocationRequest) : ProposedTradeDelta where
  thesisId := a.thesisId
  symbol := a.symbol
  themeId := a.themeId
  currentQuantity := quantityOf account a.symbol
  currentAvailableQuantity := availableOf account a.symbol
  targetQuantity := a.targetQuantity
  tradeQuantity := a.targetQuantity - quantityOf account a.symbol
  referencePrice := a.referencePrice
  averageDailyTradeValue := a.averageDailyTradeValue
  lossPerShare := a.lossPerShare

theorem ProposedTradeDelta.postInit_ok {d d' : ProposedTradeDelta}
    (h : d.postInit = .ok d') : d' = d ∧ 0 < d.averageDailyTradeValue := by
  unfold ProposedTradeDelta.postInit at h
  simp only [bind_ok, require_ok, pure_ok] at h
  obtain ⟨-, -, -, -, -, -, -, -, -, hvalue, -, -, rfl⟩ := h
  exact ⟨rfl, hvalue⟩

theorem proposedDelta_ok {allocationById : List (String × ThesisAllocationRequest)}
    {pair : String × TradingThesis} {d : ProposedTradeDelta}
    (h : proposedDelta account allocationById createdAt pair = .ok d) :
    ∃ a, allocationById.lookup pair.1 = some a ∧ d = { deltaOf account a with thesisId := pair.1 }
      ∧ 0 < d.averageDailyTradeValue := by
  unfold proposedDelta at h
  simp only [bind_ok, require_ok] at h
  obtain ⟨a, ha, -, -, -, -, -, -, -, -, hinit⟩ := h
  obtain ⟨rfl, hvalue⟩ := ProposedTradeDelta.postInit_ok hinit
  refine ⟨a, ?_, ?_, hvalue⟩
  · unfold item at ha
    cases hl : allocationById.lookup pair.1 with
    | none =>
      rw [hl] at ha
      cases ha
    | some v =>
      rw [hl] at ha
      injection ha with ha
      rw [ha]
  · rw [current_eq, lookup_map_self]
    rfl

/-- The deltas are those of the allocations, one for each. -/
theorem deltas_perm {theses : List TradingThesis} {allocations : List ThesisAllocationRequest}
    {deltas : List ProposedTradeDelta}
    (htheses : (dictOf (theses.map fun t => (t.thesisId, t))).length = theses.length)
    (hallocations : (dictOf (allocations.map fun a => (a.thesisId, a))).length = allocations.length)
    (hsame : ∀ k, k ∈ Lib.keys (dictOf (theses.map fun t => (t.thesisId, t)))
      ↔ k ∈ Lib.keys (dictOf (allocations.map fun a => (a.thesisId, a))))
    (h : (dictOf (theses.map fun t => (t.thesisId, t))).mapM
      (proposedDelta account (dictOf (allocations.map fun a =>
        (a.thesisId, a))) createdAt) = .ok deltas) :
    deltas.Perm (allocations.map (deltaOf account)) := by
  have hthesisKeys := nodup_of_length_dictOf (htheses.trans (length_map _).symm)
  have hallocationKeys := nodup_of_length_dictOf (hallocations.trans (length_map _).symm)
  rw [dictOf_eq hthesisKeys] at h hsame
  rw [dictOf_eq hallocationKeys] at h hsame
  generalize hthesis : (theses.map fun t => (t.thesisId, t)) = thesisById at h hsame hthesisKeys
  have hmap := map_mapM_ok (g := fun d => some d) (k := fun pair =>
    ((allocations.map fun a => (a.thesisId, a)).lookup pair.1).map (deltaOf account)) ?_ h
  · have hkeys : (Lib.keys thesisById).Perm (allocations.map (·.thesisId)) := by
      have hperm := (perm_ext_iff_of_nodup hthesisKeys hallocationKeys).mpr hsame
      simpa [Lib.keys, Function.comp_def] using hperm
    have hlookup := hkeys.map fun k =>
      ((allocations.map fun a => (a.thesisId, a)).lookup k).map (deltaOf account)
    rw [Lib.keys, map_map] at hlookup
    have hself : (allocations.map (·.thesisId)).map (fun k =>
          ((allocations.map fun a => (a.thesisId, a)).lookup k).map (deltaOf account))
        = (allocations.map (deltaOf account)).map some := by
      rw [map_map, map_map]
      refine map_congr_left fun a ha => ?_
      have hfound := (lookup_eq_some_iff hallocationKeys).mpr
        (mem_map_of_mem (f := fun a => (a.thesisId, a)) ha)
      simp only [Function.comp_apply]
      rw [hfound]
      rfl
    rw [hself] at hlookup
    have hfinal := (hmap ▸ hlookup).filterMap id
    simpa using hfinal
  · intro pair d hd
    obtain ⟨a, ha, rfl, -⟩ := proposedDelta_ok hd
    have hid : a.thesisId = pair.1 := by
      obtain ⟨a', -, heq⟩ := mem_map.mp ((lookup_eq_some_iff hallocationKeys).mp ha)
      obtain ⟨hfst, rfl⟩ := Prod.mk.inj heq
      exact hfst
    rw [ha, ← hid]
    rfl

-- ==== applying a delta

/-- A symbol is held as a delta leaves it: not at all when the target is
0, and at the target otherwise. -/
def AtTarget (positions : List (String × PostTradePosition)) (d : ProposedTradeDelta) : Prop :=
  (d.targetQuantity = 0 → positions.lookup d.symbol = none)
    ∧ (d.targetQuantity ≠ 0 → ∃ p, positions.lookup d.symbol = some p
      ∧ p.themeId = d.themeId ∧ p.totalQuantity = d.targetQuantity
      ∧ p.marketPrice = d.referencePrice
      ∧ p.lossPerShare = d.lossPerShare)

/-- A position under its own symbol, with no more available than there
is. -/
def Shaped (positions : List (String × PostTradePosition)) : Prop :=
  ∀ pair ∈ positions, pair.2.symbol = pair.1 ∧ 0 ≤ pair.2.availableQuantity
    ∧ pair.2.availableQuantity ≤ pair.2.totalQuantity

theorem PostTradePosition.postInit_ok {p p' : PostTradePosition}
    (h : p.postInit = .ok p') : p' = p ∧ 0 ≤ p.availableQuantity
      ∧ p.availableQuantity ≤ p.totalQuantity := by
  unfold PostTradePosition.postInit at h
  simp only [bind_ok, require_ok, pure_ok] at h
  obtain ⟨-, -, -, havailable, -, -, -, -, rfl⟩ := h
  exact ⟨rfl, havailable⟩

section Apply

variable {positions positions' : List (String × PostTradePosition)} {d : ProposedTradeDelta}

/-- What one delta does: its symbol goes to its target, and nothing else
changes. -/
theorem applyDelta_ok (hkeys : (Lib.keys positions).Nodup)
    (hshaped : Shaped positions) (h : applyDelta positions d = .ok positions') :
    (Lib.keys positions').Nodup ∧ Shaped positions' ∧ AtTarget positions' d
      ∧ ∀ s ≠ d.symbol, positions'.lookup s = positions.lookup s := by
  unfold applyDelta at h
  simp only [bind_ok, require_ok] at h
  obtain ⟨-, -, h⟩ := h
  by_cases hzero : d.targetQuantity = 0
  · rw [if_pos hzero, pure_ok] at h
    subst h
    refine ⟨nodup_keys_delItem hkeys, fun pair hpair =>
      hshaped pair (mem_filter.mp hpair).1, ⟨fun _ => ?_, fun hne =>
        absurd hzero hne⟩, fun s hs => ?_⟩
    · rw [lookup_delItem, if_pos rfl]
    · rw [lookup_delItem, if_neg hs]
  · rw [if_neg hzero, bind_ok] at h
    obtain ⟨p, hp, h⟩ := h
    rw [pure_ok] at h
    subst h
    obtain ⟨rfl, havailable⟩ := PostTradePosition.postInit_ok hp
    refine ⟨nodup_keys_setItem hkeys, fun pair hpair => ?_,
      ⟨fun h0 => absurd h0 hzero, fun _ => ?_⟩, fun s hs => ?_⟩
    · rcases mem_setItem hpair with rfl | hpair
      · exact ⟨rfl, havailable⟩
      · exact hshaped pair hpair
    · rw [lookup_setItem, if_pos rfl]
      exact ⟨_, rfl, rfl, rfl, rfl, rfl⟩
    · rw [lookup_setItem, if_neg hs]

/-- What the loop over the deltas keeps, with `rest` still to come. -/
structure Applying (start : List (String × PostTradePosition))
    (deltas rest : List ProposedTradeDelta)
    (positions : List (String × PostTradePosition)) : Prop where
  keys_nodup : (Lib.keys positions).Nodup
  shaped : Shaped positions
  rest_nodup : (rest.map (·.symbol)).Nodup
  rest_sub : ∀ d ∈ rest, d ∈ deltas
  kept : ∀ s, s ∉ deltas.map (·.symbol) ∨ s ∈ rest.map (·.symbol) →
    positions.lookup s = start.lookup s
  replaced : ∀ d ∈ deltas, d.symbol ∉ rest.map (·.symbol) → AtTarget positions d

/-- A delta that comes takes its symbol out of what is still to come. -/
theorem Applying.step {start : List (String × PostTradePosition)}
    {deltas rest : List ProposedTradeDelta} (hdeltas : (deltas.map (·.symbol)).Nodup)
    (hI : Applying start deltas (d :: rest) positions) (h : applyDelta positions d = .ok positions')
    :
    Applying start deltas rest positions' := by
  obtain ⟨hkeys, hshaped, htarget, hother⟩ := applyDelta_ok hI.keys_nodup hI.shaped h
  have hd : d ∈ deltas := hI.rest_sub d mem_cons_self
  obtain ⟨hnot, hrest⟩ := nodup_cons.mp hI.rest_nodup
  constructor
  case keys_nodup => exact hkeys
  case shaped => exact hshaped
  case rest_nodup => exact hrest
  case rest_sub => exact fun e he => hI.rest_sub e (mem_cons_of_mem d he)
  case kept =>
    rintro s (hs | hs)
    · have hne : s ≠ d.symbol := by
        rintro rfl
        exact hs (mem_map_of_mem hd)
      rw [hother s hne]
      exact hI.kept s (.inl hs)
    · have hne : s ≠ d.symbol := by
        rintro rfl
        exact hnot hs
      rw [hother s hne]
      exact hI.kept s (.inr (mem_cons_of_mem _ hs))
  case replaced =>
    intro e he hes
    by_cases hsame : e.symbol = d.symbol
    · rw [inj_on_of_nodup_map hdeltas he hd hsame]
      exact htarget
    · have hbefore := hI.replaced e he fun hmem => by
        rcases mem_cons.mp hmem with heq | hmem
        · exact hsame heq
        · exact hes hmem
      unfold AtTarget at hbefore ⊢
      rw [hother _ hsame]
      exact hbefore

end Apply

-- ==== what is proposed

structure PostTradeSound (account : AuthoritativeAccountPortfolioSnapshot)
    (allocations : List ThesisAllocationRequest)
    (post : PostTradePortfolioSnapshot) : Prop where
  distinct : (post.positions.map (·.symbol)).Pairwise (· < ·)
  kept : ∀ s ∉ allocations.map (·.symbol), ∀ q, (q ∈ post.positions ∧ q.symbol = s)
      ↔ ∃ p ∈ account.allPositions, p.symbol = s ∧ q = p.beforeTrade
  replaced : ∀ a ∈ allocations, a.targetQuantity ≠ 0 →
    ∃ q ∈ post.positions, q.symbol = a.symbol ∧ q.themeId = a.themeId
      ∧ q.totalQuantity = a.targetQuantity
      ∧ q.marketPrice = a.referencePrice ∧ q.lossPerShare = a.lossPerShare
  removed : ∀ a ∈ allocations, a.targetQuantity = 0 → a.symbol ∉ post.positions.map (·.symbol)
  available : ∀ q ∈ post.positions, 0 ≤ q.availableQuantity ∧ q.availableQuantity ≤ q.totalQuantity
  cash : post.availableCash = account.availableCash - (post.proposedDeltas.map (·.tradeValue)).sum
  deltas : post.proposedDeltas.Perm (allocations.map (deltaOf account))

theorem before_ok {before : List (String × PostTradePosition)}
    (h : (account.allPositions.mapM fun item => do
      let position ← PostTradePosition.postInit item.beforeTrade
      return (item.symbol, position)) = .ok before) :
    before = account.allPositions.map fun p => (p.symbol, p.beforeTrade) := by
  have hmap := map_mapM_ok (g := id)
    (k := fun p : AccountPosition => (p.symbol, p.beforeTrade)) ?_ h
  · simpa using hmap
  · intro p pair hpair
    simp only [bind_ok, pure_ok] at hpair
    obtain ⟨q, hq, rfl⟩ := hpair
    rw [(PostTradePosition.postInit_ok hq).1]
    rfl

variable {allocations : List ThesisAllocationRequest} {actor reason : String}
  {decision : CompleteAccountPortfolioDecision}

/-- The account after deltas of distinct symbols. -/
theorem postTradeSound_of_apply {deltas : List ProposedTradeDelta} {asOf : Instant}
    {post : PostTradePortfolioSnapshot} (hdeltas : deltas.Perm (allocations.map (deltaOf account)))
    (h : applyDeltas account deltas asOf = .ok post) :
    PostTradeSound account allocations post := by
  unfold applyDeltas at h
  simp only [bind_ok] at h
  obtain ⟨before, hbefore, positions, hloop, h⟩ := h
  unfold PostTradePortfolioSnapshot.postInit at h
  simp only [bind_ok, require_ok, pure_ok] at h
  obtain ⟨-, hsorted, -, hdistinct, rfl⟩ := h
  have hbefore := before_ok hbefore
  have hkeys : Lib.keys before = account.allPositions.map (·.symbol) := by
    rw [hbefore, Lib.keys, map_map]
    rfl
  have hkeysNodup : (Lib.keys before).Nodup := hkeys ▸ symbols_nodup
  have hsymbols : (deltas.map (·.symbol)).Nodup := by
    rw [show deltas.map (·.symbol) = _ from hdistinct]
    exact (sortedDistinct_pairwise _).nodup
  rw [dictOf_eq hkeysNodup] at hloop
  have hend := foldlM_inv (I := Applying before deltas)
    (fun d rest now after hI hstep => hI.step hsymbols hstep) ?_ hloop
  · have hmem : ∀ q, q ∈ sortBy (·.symbol) (positions.map (·.2))
        ↔ positions.lookup q.symbol = some q := by
      intro q
      rw [(sortBy_perm _ _).mem_iff, mem_map, lookup_eq_some_iff hend.keys_nodup]
      constructor
      · rintro ⟨pair, hpair, rfl⟩
        rw [(hend.shaped pair hpair).1]
        exact hpair
      · exact fun hpair => ⟨_, hpair, rfl⟩
    have hsource : ∀ a ∈ allocations, deltaOf account a ∈ deltas :=
      fun a ha => hdeltas.mem_iff.mpr (mem_map_of_mem ha)
    have hnamed : deltas.map (·.symbol) ⊆ allocations.map (·.symbol) := by
      intro s hs
      obtain ⟨d, hd, rfl⟩ := mem_map.mp hs
      obtain ⟨a, ha, rfl⟩ := mem_map.mp (hdeltas.mem_iff.mp hd)
      exact mem_map_of_mem (f := (·.symbol)) ha
    constructor
    case distinct =>
      rw [show (sortBy _ _).map _ = _ from hsorted]
      exact sortedDistinct_pairwise _
    case kept =>
      intro s hs q
      have hlookup := hend.kept s (.inl fun hin => hs (hnamed hin))
      constructor
      · rintro ⟨hq, rfl⟩
        have hq' := (hmem q).mp hq
        rw [hlookup, lookup_eq_some_iff hkeysNodup, hbefore] at hq'
        obtain ⟨p, hp, heq⟩ := mem_map.mp hq'
        obtain ⟨hsym, rfl⟩ := Prod.mk.inj heq
        exact ⟨p, hp, hsym, rfl⟩
      · rintro ⟨p, hp, rfl, rfl⟩
        refine ⟨(hmem _).mpr ?_, rfl⟩
        show positions.lookup p.symbol = _
        rw [hlookup, lookup_eq_some_iff hkeysNodup, hbefore]
        exact mem_map_of_mem (f := fun p : AccountPosition => (p.symbol, p.beforeTrade)) hp
    case replaced =>
      intro a ha hne
      obtain ⟨p, hp, htheme, htotal, hprice, hloss⟩ :=
        (hend.replaced _ (hsource a ha) (by simp)).2 hne
      have hsym : p.symbol = a.symbol := (hend.shaped _
        ((lookup_eq_some_iff hend.keys_nodup).mp hp)).1
      refine ⟨p, (hmem p).mpr ?_, hsym, htheme, htotal, hprice, hloss⟩
      rw [hsym]
      exact hp
    case removed =>
      intro a ha hzero hin
      obtain ⟨q, hq, hsym⟩ := mem_map.mp hin
      have hnone := (hend.replaced _ (hsource a ha) (by simp)).1 hzero
      have hq' := (hmem q).mp hq
      rw [hsym] at hq'
      exact absurd (hq'.symm.trans hnone) (Option.some_ne_none _)
    case available =>
      intro q hq
      have hpair := (lookup_eq_some_iff hend.keys_nodup).mp ((hmem q).mp hq)
      exact (hend.shaped _ hpair).2
    case cash => rfl
    case deltas => exact hdeltas
  · constructor
    case keys_nodup => exact hkeysNodup
    case shaped =>
      intro pair hpair
      rw [hbefore] at hpair
      obtain ⟨p, -, rfl⟩ := mem_map.mp hpair
      exact ⟨rfl, p.available_nonneg, p.available_le⟩
    case rest_nodup => exact hsymbols
    case rest_sub => exact fun _ hd => hd
    case kept => exact fun _ _ => rfl
    case replaced => exact fun d hd hnot => absurd (mem_map_of_mem hd) hnot

/-- What is constructed: the account and the configuration as given, and
the account after the deltas of the allocations. -/
theorem construct_ok {theses : List TradingThesis}
    {configuration : CompleteAccountRiskConfiguration}
    {mode : PortfolioOutputMode} {createdAt : Instant}
    (h : construct theses allocations account configuration mode actor reason
      createdAt = .ok decision) :
    decision.accountSnapshot = account ∧ decision.configuration = configuration
      ∧ PostTradeSound account allocations decision.postTrade := by
  unfold construct at h
  simp only [bind_ok, require_ok] at h
  obtain ⟨⟨⟩, -, ⟨⟩, ⟨htheses, hallocations⟩, ⟨⟩, ⟨hsub, hsup⟩, -, -, deltas,
    hdeltas, post, hpost, hinit⟩ := h
  unfold CompleteAccountPortfolioDecision.postInit at hinit
  simp only [bind_ok, require_ok, pure_ok] at hinit
  obtain ⟨-, -, -, -, rfl⟩ := hinit
  have hperm := deltas_perm htheses hallocations (fun k => ⟨hsub k, hsup k⟩) hdeltas
  exact ⟨rfl, rfl, postTradeSound_of_apply ((sortBy_perm _ _).trans hperm) hpost⟩

-- ==== what is approved

/-- What an approval says of the account, of its positions after the
trades and of the trades. -/
structure RiskRespected (account : AuthoritativeAccountPortfolioSnapshot)
    (configuration : CompleteAccountRiskConfiguration)
    (post : PostTradePortfolioSnapshot) (startedAt completedAt : Instant) :
    Prop where
  in_time : totalSeconds completedAt startedAt ≤ configuration.riskBudget.riskServiceTimeoutSeconds
  not_future : 0 ≤ totalSeconds startedAt account.asOf
  not_stale : totalSeconds startedAt account.asOf ≤ configuration.maximumAccountSnapshotAgeSeconds
  complete : account.completeness = .completeAccount
  reconciled : account.reconciliationState = .reconciled
  gross : (post.positions.map (·.marketValue)).sum / account.netAssetValue
    ≤ configuration.riskBudget.maximumGrossExposure
  symbol : ∀ p ∈ post.positions, p.marketValue / account.netAssetValue
    ≤ configuration.riskBudget.singleSymbolLimit
  theme : ∀ themeId, ((post.positions.filter (·.themeId = themeId)).map
      (·.marketValue)).sum / account.netAssetValue
    ≤ configuration.riskBudget.themeLimit
  loss : (post.positions.map (·.maximumLoss)).sum / account.netAssetValue
    ≤ configuration.riskBudget.maximumLossBudget
  participation : ∀ d ∈ post.proposedDeltas,
    |d.tradeValue| / d.averageDailyTradeValue ≤ configuration.riskBudget.liquidityMaxParticipation
  reserve : account.netAssetValue * configuration.riskBudget.minimumCashReserve ≤ post.availableCash
  t_plus_one : configuration.riskBudget.tPlusOneEnforced = true →
    ∀ d ∈ post.proposedDeltas, -d.tradeQuantity ≤ availableOf account d.symbol

theorem theme_le {l : List PostTradePosition} {nav limit : ℚ} (hlimit : 0 ≤ limit)
    (h : maxOr 0 ((groupSums (·.themeId) PostTradePosition.marketValue l).map
      (·.2 / nav)) ≤ limit) (themeId : String) :
    ((l.filter (·.themeId = themeId)).map (·.marketValue)).sum / nav ≤ limit := by
  rw [← getD_groupSums (·.themeId) PostTradePosition.marketValue]
  cases hsum : (groupSums (·.themeId) PostTradePosition.marketValue l).lookup themeId with
  | none =>
    -- no position has this theme
    show 0 / nav ≤ limit
    rw [zero_div]
    exact hlimit
  | some sum =>
    obtain ⟨before, after, hsplit, -⟩ := List.lookup_eq_some_iff.mp hsum
    have hmem : (themeId, sum) ∈ groupSums (·.themeId) PostTradePosition.marketValue l := by
      rw [hsplit]
      simp
    refine le_trans (le_maxOr ?_) h
    exact mem_map_of_mem (f := fun x : String × ℚ => x.2 / nav) hmem

variable {startedAt completedAt : Instant} {portfolio : CompleteAccountPortfolioDecision}

/-- What is approved has got past every check of `verdict`, and all of
its constraints have passed. -/
theorem verdict_approved (h : (verdict portfolio startedAt completedAt).1 = .approved) :
    totalSeconds completedAt startedAt
        ≤ portfolio.configuration.riskBudget.riskServiceTimeoutSeconds
      ∧ 0 ≤ totalSeconds startedAt portfolio.accountSnapshot.asOf
      ∧ totalSeconds startedAt portfolio.accountSnapshot.asOf
        ≤ portfolio.configuration.maximumAccountSnapshotAgeSeconds
      ∧ portfolio.accountSnapshot.completeness = .completeAccount
      ∧ portfolio.accountSnapshot.reconciliationState = .reconciled
      ∧ ∀ c ∈ completeAccountConstraints portfolio, c.passed = true := by
  unfold verdict at h
  dsimp only at h
  split at h
  next => cases h
  next htime =>
    split at h
    next => cases h
    next hfuture =>
      split at h
      next => cases h
      next hstale =>
        split at h
        next => cases h
        next hcomplete =>
          split at h
          next => cases h
          next hreconciled =>
            split at h
            next hfailed =>
              refine ⟨not_lt.mp htime, not_lt.mp hfuture, not_lt.mp hstale, not_not.mp hcomplete,
                not_not.mp hreconciled, fun c hc => ?_⟩
              have hnot := filter_eq_nil_iff.mp hfailed c hc
              simpa using hnot
            next => cases h

theorem assess_ok {risk : CompleteAccountRiskDecision}
    (h : assess portfolio actor reason startedAt completedAt = .ok risk) :
    risk.state = (verdict portfolio startedAt completedAt).1 := by
  unfold assess CompleteAccountRiskDecision.postInit at h
  simp only [bind_ok, require_ok, pure_ok] at h
  obtain ⟨-, -, -, -, -, -, -, -, rfl⟩ := h
  rfl

/-- The constraints that have passed are the limits, entry by entry. -/
theorem respected_of_verdict
    (hsound : PostTradeSound decision.accountSnapshot allocations decision.postTrade)
    (h : (verdict decision startedAt completedAt).1 = .approved) :
    RiskRespected decision.accountSnapshot decision.configuration
      decision.postTrade startedAt completedAt := by
  obtain ⟨htime, hfuture, hstale, hcomplete, hreconciled, hpassed⟩ := verdict_approved h
  have hlimits := decision.configuration.riskBudget.limits
  simp only [completeAccountConstraints, makeConstraint, forall_mem_cons,
    decide_eq_true_eq] at hpassed
  obtain ⟨hgross, hsymbol, htheme, hliquidity, hcash, -, hplus, hloss, -⟩ := hpassed
  constructor
  case in_time => exact htime
  case not_future => exact hfuture
  case not_stale => exact hstale
  case complete => exact hcomplete
  case reconciled => exact hreconciled
  case gross => exact hgross
  case symbol =>
    intro p hp
    refine le_trans (le_maxOr ?_) hsymbol
    exact mem_map_of_mem (f := fun p : PostTradePosition =>
      p.marketValue / decision.accountSnapshot.netAssetValue) hp
  case theme => exact theme_le (hlimits _ (by simp)).1 htheme
  case loss => exact hloss
  case participation =>
    intro d hd
    refine le_trans (le_maxOr ?_) hliquidity
    exact mem_map_of_mem (f := ProposedTradeDelta.participation) hd
  case reserve =>
    have hshort := le_trans (le_max_right _ _) hcash
    linarith only [hshort]
  case t_plus_one =>
    intro henforced d hd
    rw [henforced, if_pos rfl] at hplus
    obtain ⟨a, -, rfl⟩ := mem_map.mp (hsound.deltas.mem_iff.mp hd)
    have hsell : ((deltaOf decision.accountSnapshot a).unavailable : ℚ) ≤ 0 :=
      le_trans (le_maxOr (mem_map_of_mem hd)) hplus
    have hsell' : max 0 (-(deltaOf decision.accountSnapshot a).tradeQuantity
        - (deltaOf decision.accountSnapshot a).currentAvailableQuantity) ≤ 0 := by
      unfold ProposedTradeDelta.unavailable at hsell
      exact_mod_cast hsell
    show -_ ≤ (deltaOf decision.accountSnapshot a).currentAvailableQuantity
    omega

/-- The proposal is sound, and what its Risk approves respects every
limit. -/
theorem complete_account_risk_sound (theses : List TradingThesis)
    (allocations : List ThesisAllocationRequest)
    (account : AuthoritativeAccountPortfolioSnapshot)
    (configuration : CompleteAccountRiskConfiguration)
    (mode : PortfolioOutputMode) (actor reason : String) (createdAt : Instant)
    (decision : CompleteAccountPortfolioDecision)
    (h : construct theses allocations account configuration mode actor reason
      createdAt = .ok decision) :
    PostTradeSound account allocations decision.postTrade
      ∧ ∀ (assessor why : String) (startedAt completedAt : Instant)
          (risk : CompleteAccountRiskDecision),
        assess decision assessor why startedAt completedAt = .ok risk → risk.state = .approved →
          RiskRespected account configuration decision.postTrade startedAt
            completedAt := by
  obtain ⟨rfl, rfl, hsound⟩ := construct_ok h
  refine ⟨hsound, fun assessor why startedAt completedAt risk hrisk hstate => ?_⟩
  rw [assess_ok hrisk] at hstate
  exact respected_of_verdict hsound hstate

/-- An account with 600 shares of one symbol, of which the allocation
below sells 200, and 100 of another that no allocation names. -/
def sampleAccount : AuthoritativeAccountPortfolioSnapshot where
  accountId := "account-1"
  asOf := 0
  netAssetValue := 100000
  availableCash := 60000
  allPositions :=
    [{ symbol := "600000", themeId := "bank", totalQuantity := 600
       availableQuantity := 300, marketPrice := 10, lossPerShare := 1
       quantity_positive := by decide, available_nonneg := by decide
       available_le := by decide, price_positive := by decide
       loss_positive := by decide },
     { symbol := "600519", themeId := "liquor", totalQuantity := 100
       availableQuantity := 100, marketPrice := 20, lossPerShare := 2
       quantity_positive := by decide, available_nonneg := by decide
       available_le := by decide, price_positive := by decide
       loss_positive := by decide }]
  completeness := .completeAccount
  reconciliationState := .reconciled
  version := 1
  nav_positive := by decide
  cash_nonneg := by decide
  positions_sorted := by decide +kernel

def sampleConfiguration : CompleteAccountRiskConfiguration where
  profileId := "profile-1"
  riskBudget :=
    { maximumGrossExposure := 1 / 2
      singleSymbolLimit := 1 / 5
      themeLimit := 1 / 4
      liquidityMaxParticipation := 1 / 10
      minimumCashReserve := 1 / 10
      maximumLossBudget := 1 / 20
      tPlusOneEnforced := true
      riskServiceTimeoutSeconds := 5
      limits := by decide +kernel
      timeout_positive := by decide }
  maximumAccountSnapshotAgeSeconds := 60
  age_positive := by decide

def sampleTheses : List TradingThesis :=
  [{ thesisId := "thesis-1", symbol := "600000", timeInvalidation := 100000000
     state := .approved },
   { thesisId := "thesis-2", symbol := "000001", timeInvalidation := 100000000
     state := .approved }]

def sampleAllocations : List ThesisAllocationRequest :=
  [{ thesisId := "thesis-2", symbol := "000001", themeId := "bank"
     targetQuantity := 500, referencePrice := 12
     averageDailyTradeValue := 1000000, lossPerShare := 1
     target_nonneg := by decide, price_positive := by decide
     trade_value_positive := by decide, loss_positive := by decide },
   { thesisId := "thesis-1", symbol := "600000", themeId := "bank"
     targetQuantity := 400, referencePrice := 11
     averageDailyTradeValue := 1000000, lossPerShare := 1
     target_nonneg := by decide, price_positive := by decide
     trade_value_positive := by decide, loss_positive := by decide }]

/-- The sample is constructed and approved. -/
theorem complete_account_risk_sound_sample : ∃ decision risk,
    construct sampleTheses sampleAllocations sampleAccount sampleConfiguration
        .simulation "desk" "daily" 1000000 = .ok decision
      ∧ assess decision "desk" "daily" 2000000 3000000 = .ok risk
      ∧ PostTradeSound sampleAccount sampleAllocations decision.postTrade
      ∧ RiskRespected sampleAccount sampleConfiguration decision.postTrade
        2000000 3000000 := by
  have hrun : ((construct sampleTheses sampleAllocations sampleAccount
      sampleConfiguration .simulation "desk" "daily" 1000000).bind fun decision =>
        (assess decision "desk" "daily" 2000000 3000000).bind fun risk =>
          Lib.require (risk.state = .approved) (.valueError "rejected")).isOk := by
    decide +kernel
  obtain ⟨_, hok⟩ := exists_of_isOk hrun
  obtain ⟨decision, hdecision, hok⟩ := bind_ok.mp hok
  obtain ⟨risk, hrisk, hok⟩ := bind_ok.mp hok
  have hsound := complete_account_risk_sound _ _ _ _ _ _ _ _ _ hdecision
  exact ⟨decision, risk, hdecision, hrisk, hsound.1, hsound.2 _ _ _ _ _ hrisk (require_ok.mp hok)⟩

end MarketRegimeAlpha.Portfolio
