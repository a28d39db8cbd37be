/-
What the proposals of a cycle are granted.

# One symbol

Reductions are entered in full, and beside one no increase gets anything.
Otherwise the increases, by falling utility, are granted from what is left of
the symbol's budget and of the gross one (`Lib.grant`). The difference of the
two budgets stays the same along the way, so which of them a cut is blamed on
is decided before the first increase, and it is the one that is used up.
-/
import MarketRegimeAlpha.Lib.Rationing
import MarketRegimeAlpha.Strategies.Portfolio

namespace MarketRegimeAlpha.Strategies

open Lib List

-- ==== what is granted

def granted (accepted : Accepted) (proposal : StrategyProposal) : ℚ :=
  ((accepted.lookup proposal.proposalId).map (·.1)).getD 0

def reasonsFor (accepted : Accepted) (proposal : StrategyProposal) :
    List String :=
  ((accepted.lookup proposal.proposalId).map (·.2)).getD []

/-- The positive weights granted on a symbol. -/
def spentOn (proposals : List StrategyProposal) (accepted : Accepted) (symbol : String) : ℚ :=
  ((proposals.filter (·.symbol = symbol)).map fun proposal => max 0 (granted accepted proposal)).sum

theorem granted_of_lookup {accepted : Accepted} {proposal : StrategyProposal} {weight : ℚ}
    {reasons : List String} (h : accepted.lookup proposal.proposalId = some (weight, reasons)) :
    granted accepted proposal = weight ∧ reasonsFor accepted proposal = reasons
    := by
  unfold granted reasonsFor
  rw [h]
  exact ⟨rfl, rfl⟩

section Entering

variable {proposals : List StrategyProposal} (accepted : Accepted)
  (weight : StrategyProposal → ℚ) (reason : String)

theorem lookup_acceptAll_ne {id : String} (h : id ∉ proposals.map (·.proposalId)) :
    (acceptAll weight reason accepted proposals).lookup id = accepted.lookup id := by
  unfold acceptAll
  induction proposals generalizing accepted with
  | nil => rfl
  | cons proposal proposals ih =>
    rw [map_cons, mem_cons, not_or] at h
    rw [foldl_cons, ih _ h.2, lookup_setItem, if_neg h.1]

theorem lookup_acceptAll (hids : (proposals.map (·.proposalId)).Nodup)
    {proposal : StrategyProposal} (h : proposal ∈ proposals) :
    (acceptAll weight reason accepted proposals).lookup proposal.proposalId
      = some (weight proposal, [reason]) := by
  induction proposals generalizing accepted with
  | nil => cases h
  | cons first proposals ih =>
    obtain ⟨hfresh, hids⟩ := nodup_cons.mp hids
    rcases mem_cons.mp h with rfl | h
    · show (acceptAll weight reason _ proposals).lookup _ = _
      rw [lookup_acceptAll_ne _ _ _ hfresh, lookup_setItem, if_pos rfl]
    · exact ih _ hids h

end Entering

-- ==== the ranked increases

def rankReasons (grossFirst : Bool) (desired weight : ℚ) : List String :=
  if weight = desired then ["ACCEPTED_WITHIN_BASELINE_RISK"]
  else if grossFirst then ["GROSS_WEIGHT_CAPPED"]
  else ["SYMBOL_WEIGHT_CAPPED"]

/-- What the loop over the ranked increases does. -/
structure Ranked (ranked : List StrategyProposal) (before after : Ranking) : Prop where
  frame : ∀ id, id ∉ ranked.map (·.proposalId) →
    after.accepted.lookup id = before.accepted.lookup id
  gross : after.grossRemaining = before.grossRemaining
    - (grant before.symbolRemaining (ranked.map (·.desiredWeight))).sum
  entries : ∀ entry ∈ ranked.zip (grant before.symbolRemaining (ranked.map (·.desiredWeight))),
    after.accepted.lookup entry.1.proposalId = some (entry.2, rankReasons
      (before.grossRemaining ≤ before.symbolRemaining)
      entry.1.desiredWeight entry.2)

theorem ranked_foldl {ranked : List StrategyProposal}
    (hids : (ranked.map (·.proposalId)).Nodup) (state : Ranking) :
    Ranked ranked state (ranked.foldl rankStep state) := by
  induction ranked generalizing state with
  | nil => exact ⟨fun _ _ => rfl, by simp [grant], nofun⟩
  | cons proposal ranked ih =>
    obtain ⟨hfresh, hids⟩ := nodup_cons.mp hids
    obtain ⟨hframe, hgross, hentries⟩ := ih hids (rankStep state proposal)
    rw [foldl_cons]
    have hblame : (rankStep state proposal).grossRemaining
        ≤ (rankStep state proposal).symbolRemaining
        ↔ state.grossRemaining ≤ state.symbolRemaining :=
      sub_le_sub_iff_right _
    constructor
    case frame =>
      intro id hid
      rw [map_cons, mem_cons, not_or] at hid
      rw [hframe id hid.2]
      show (setItem _ _ _).lookup id = _
      rw [lookup_setItem, if_neg hid.1]
    case gross =>
      rw [hgross, map_cons, grant_cons, sum_cons, ← sub_sub]
      rfl
    case entries =>
      intro entry hentry
      rcases mem_cons.mp hentry with rfl | hentry
      · rw [hframe _ hfresh]
        show (setItem _ _ _).lookup _ = _
        rw [lookup_setItem, if_pos rfl]
        unfold rankReasons
        simp only [decide_eq_true_eq]
      · have hlookup := hentries entry hentry
        simp only [hblame] at hlookup
        exact hlookup

-- ==== one symbol

structure SymbolLaw (policy : CrossStrategyPortfolioPolicy)
    (proposals : List StrategyProposal) (symbol : String) (gross : ℚ)
    (accepted : Accepted) : Prop where
  entered : ∀ p ∈ proposals, p.symbol = symbol →
    ∃ entry, accepted.lookup p.proposalId = some entry ∧ entry.2 ≠ []
  within : spentOn proposals accepted symbol ≤ policy.maximumSymbolWeight
  reduced : ∀ p ∈ proposals, p.symbol = symbol → p.desiredWeight < 0 →
    granted accepted p = p.desiredWeight
  opposed : ∀ p ∈ proposals, p.symbol = symbol → 0 < p.desiredWeight →
    (∃ other ∈ proposals, other.symbol = symbol ∧ other.desiredWeight < 0) →
    granted accepted p = 0
  increased : ∀ p ∈ proposals, p.symbol = symbol → 0 < p.desiredWeight →
    0 ≤ granted accepted p ∧ granted accepted p ≤ p.desiredWeight
  /-- An increase that nothing opposes is cut by a budget that is used up. -/
  cut : ∀ p ∈ proposals, p.symbol = symbol → 0 < p.desiredWeight →
    (∀ other ∈ proposals, other.symbol = symbol → ¬ other.desiredWeight < 0) →
    granted accepted p ≠ p.desiredWeight →
    gross = 0 ∨ spentOn proposals accepted symbol = policy.maximumSymbolWeight
  grossCapped : ∀ p ∈ proposals, p.symbol = symbol →
    "GROSS_WEIGHT_CAPPED" ∈ reasonsFor accepted p → gross = 0
  symbolCapped : ∀ p ∈ proposals, p.symbol = symbol →
    "SYMBOL_WEIGHT_CAPPED" ∈ reasonsFor accepted p →
    spentOn proposals accepted symbol = policy.maximumSymbolWeight
  ranked : ∀ p ∈ proposals, ∀ p' ∈ proposals, p.symbol = symbol →
    p'.symbol = symbol → utilityOf p' < utilityOf p →
    granted accepted p ≠ p.desiredWeight → ¬ 0 < granted accepted p'

/-- The law of a symbol survives what leaves its entries alone and does not
refill the gross budget. -/
theorem SymbolLaw.mono {policy : CrossStrategyPortfolioPolicy}
    {proposals : List StrategyProposal} {symbol : String} {gross gross' : ℚ}
    {accepted accepted' : Accepted}
    (h : SymbolLaw policy proposals symbol gross accepted)
    (hsame : ∀ p ∈ proposals, p.symbol = symbol →
      accepted'.lookup p.proposalId = accepted.lookup p.proposalId)
    (hgross : gross = 0 → gross' = 0) :
    SymbolLaw policy proposals symbol gross' accepted'
      ∧ spentOn proposals accepted' symbol = spentOn proposals accepted symbol := by
  have hgranted : ∀ p ∈ proposals, p.symbol = symbol →
      granted accepted' p = granted accepted p := by
    intro p hp hsymbol
    unfold granted
    rw [hsame p hp hsymbol]
  have hreasons : ∀ p ∈ proposals, p.symbol = symbol →
      reasonsFor accepted' p = reasonsFor accepted p := by
    intro p hp hsymbol
    unfold reasonsFor
    rw [hsame p hp hsymbol]
  have hspent : spentOn proposals accepted' symbol = spentOn proposals accepted symbol := by
    refine congrArg _ (map_congr_left fun p hp => ?_)
    obtain ⟨hp, hsymbol⟩ := mem_filter.mp hp
    rw [hgranted p hp (of_decide_eq_true hsymbol)]
  refine ⟨?_, hspent⟩
  constructor
  case entered =>
    intro p hp hsymbol
    rw [hsame p hp hsymbol]
    exact h.entered p hp hsymbol
  case within =>
    rw [hspent]
    exact h.within
  case reduced =>
    intro p hp hsymbol
    rw [hgranted p hp hsymbol]
    exact h.reduced p hp hsymbol
  case opposed =>
    intro p hp hsymbol
    rw [hgranted p hp hsymbol]
    exact h.opposed p hp hsymbol
  case increased =>
    intro p hp hsymbol
    rw [hgranted p hp hsymbol]
    exact h.increased p hp hsymbol
  case cut =>
    intro p hp hsymbol hpos hnone hne
    rw [hgranted p hp hsymbol] at hne
    rw [hspent]
    exact (h.cut p hp hsymbol hpos hnone hne).imp_left hgross
  case grossCapped =>
    intro p hp hsymbol hreason
    rw [hreasons p hp hsymbol] at hreason
    exact hgross (h.grossCapped p hp hsymbol hreason)
  case symbolCapped =>
    intro p hp hsymbol hreason
    rw [hreasons p hp hsymbol] at hreason
    rw [hspent]
    exact h.symbolCapped p hp hsymbol hreason
  case ranked =>
    intro p hp p' hp' hsymbol hsymbol' hutility
    rw [hgranted p hp hsymbol, hgranted p' hp' hsymbol']
    exact h.ranked p hp p' hp' hsymbol hsymbol' hutility

/-- What one symbol does to the gross budget and to the entries. -/
structure SymbolDone (policy : CrossStrategyPortfolioPolicy)
    (proposals : List StrategyProposal) (symbol : String)
    (before after : ℚ × Accepted) : Prop where
  frame : ∀ p ∈ proposals, p.symbol ≠ symbol →
    after.2.lookup p.proposalId = before.2.lookup p.proposalId
  gross : after.1 + spentOn proposals after.2 symbol = before.1
  nonneg : 0 ≤ after.1
  law : SymbolLaw policy proposals symbol after.1 after.2

section OneSymbol

variable {policy : CrossStrategyPortfolioPolicy}
  {proposals : List StrategyProposal} {symbol : String}

theorem mem_reductionsOf {p : StrategyProposal} : p ∈ reductionsOf proposals symbol ↔
      p ∈ proposals ∧ p.symbol = symbol ∧ p.desiredWeight < 0 := by
  simp [reductionsOf, and_comm, and_left_comm]

theorem mem_increasesOf {p : StrategyProposal} : p ∈ increasesOf proposals symbol ↔
      p ∈ proposals ∧ p.symbol = symbol ∧ 0 < p.desiredWeight := by
  simp [increasesOf, and_comm, and_left_comm]

theorem reductionsOf_sublist : (reductionsOf proposals symbol).Sublist proposals :=
  filter_sublist.trans filter_sublist

theorem increasesOf_sublist : (increasesOf proposals symbol).Sublist proposals :=
  filter_sublist.trans filter_sublist

variable (hids : (proposals.map (·.proposalId)).Nodup)

include hids in
theorem mem_of_id_mem {part : List StrategyProposal}
    (hpart : ∀ p ∈ part, p ∈ proposals) {p : StrategyProposal} (hp : p ∈ proposals)
    (h : p.proposalId ∈ part.map (·.proposalId)) : p ∈ part := by
  obtain ⟨other, hother, hid⟩ := mem_map.mp h
  rwa [← inj_on_of_nodup_map hids (hpart other hother) hp hid]

variable (hnonzero : ∀ p ∈ proposals, p.desiredWeight ≠ 0)

include hnonzero in
/-- With no weight zero, the positive weights of a symbol are those of its
increases, as long as its reductions are entered in full. -/
theorem spentOn_eq {accepted : Accepted}
    (hreduced : ∀ p ∈ reductionsOf proposals symbol, granted accepted p = p.desiredWeight)
    (hincreased : ∀ p ∈ increasesOf proposals symbol, 0 ≤ granted accepted p) :
    spentOn proposals accepted symbol
      = ((increasesOf proposals symbol).map (granted accepted)).sum := by
  have hincreases : increasesOf proposals symbol = (proposals.filter (·.symbol = symbol)).filter
        fun p => !decide (p.desiredWeight < 0) := by
    refine filter_congr fun p hp => ?_
    have hne := hnonzero p (mem_of_mem_filter hp)
    by_cases hneg : p.desiredWeight < 0
    · simp [hneg, hneg.le]
    · have hpos : 0 < p.desiredWeight := lt_of_le_of_ne (not_lt.mp hneg) (Ne.symm hne)
      simp [hpos, hneg]
  have hperm := filter_append_perm (fun p => decide (p.desiredWeight < 0))
    (proposals.filter (·.symbol = symbol))
  rw [← hincreases] at hperm
  unfold spentOn
  rw [← (hperm.map _).sum_eq, map_append, sum_append]
  have hnone : ((reductionsOf proposals symbol).map fun p =>
      max 0 (granted accepted p)).sum = 0 := by
    refine sum_eq_zero fun weight hweight => ?_
    obtain ⟨p, hp, rfl⟩ := mem_map.mp hweight
    rw [hreduced p hp]
    exact max_eq_left (mem_reductionsOf.mp hp).2.2.le
  unfold reductionsOf at hnone
  rw [hnone, zero_add]
  exact congrArg _ (map_congr_left fun p hp => max_eq_right (hincreased p hp))

include hnonzero in
theorem reduction_or_increase {p : StrategyProposal} (hp : p ∈ proposals)
    (hsymbol : p.symbol = symbol) :
    p ∈ reductionsOf proposals symbol ∨ p ∈ increasesOf proposals symbol := by
  rcases lt_or_gt_of_ne (hnonzero p hp) with hneg | hpos
  · exact .inl (mem_reductionsOf.mpr ⟨hp, hsymbol, hneg⟩)
  · exact .inr (mem_increasesOf.mpr ⟨hp, hsymbol, hpos⟩)

include hids in
theorem id_not_mem_increasesOf {p : StrategyProposal} (hp : p ∈ reductionsOf proposals symbol) :
    p.proposalId ∉ (increasesOf proposals symbol).map (·.proposalId) := by
  intro hmem
  obtain ⟨hproposal, -, hneg⟩ := mem_reductionsOf.mp hp
  have hincrease := mem_of_id_mem hids (fun _ hq => (mem_increasesOf.mp hq).1) hproposal hmem
  exact absurd hneg (not_lt.mpr (mem_increasesOf.mp hincrease).2.2.le)

include hids in
theorem id_not_mem_of_symbol_ne {part : List StrategyProposal}
    (hpart : ∀ p ∈ part, p ∈ proposals ∧ p.symbol = symbol)
    {p : StrategyProposal} (hp : p ∈ proposals) (hsymbol : p.symbol ≠ symbol) :
    p.proposalId ∉ part.map (·.proposalId) := by
  intro hmem
  have hin := mem_of_id_mem hids (fun q hq => (hpart q hq).1) hp hmem
  exact hsymbol (hpart p hin).2

include hids in
theorem lookup_reduction (accepted : Accepted)
    {p : StrategyProposal} (hp : p ∈ reductionsOf proposals symbol) :
    (acceptAll (·.desiredWeight) "RISK_REDUCTION_ACCEPTED" accepted
      (reductionsOf proposals symbol)).lookup p.proposalId
        = some (p.desiredWeight, ["RISK_REDUCTION_ACCEPTED"]) :=
  lookup_acceptAll _ _ _ (hids.sublist (reductionsOf_sublist.map _)) hp

include hids in
theorem lookup_other (accepted : Accepted)
    {p : StrategyProposal} (hp : p ∈ proposals) (hsymbol : p.symbol ≠ symbol) :
    (acceptAll (·.desiredWeight) "RISK_REDUCTION_ACCEPTED" accepted
      (reductionsOf proposals symbol)).lookup p.proposalId = accepted.lookup p.proposalId :=
  lookup_acceptAll_ne _ _ _ (id_not_mem_of_symbol_ne hids (fun _ hq =>
    ⟨(mem_reductionsOf.mp hq).1, (mem_reductionsOf.mp hq).2.1⟩) hp hsymbol)

include hids in
include hnonzero in
/-- A symbol whose increases are opposed by a reduction. -/
theorem symbolDone_opposed {state : ℚ × Accepted} (hstate : 0 ≤ state.1)
    (hreductions : reductionsOf proposals symbol ≠ []) :
    SymbolDone policy proposals symbol state
      (state.1, acceptAll (fun _ => 0) "OPPOSING_REDUCTION_PRIORITY"
        (acceptAll (·.desiredWeight) "RISK_REDUCTION_ACCEPTED" state.2
          (reductionsOf proposals symbol)) (increasesOf proposals symbol)) := by
  generalize haccepted : acceptAll (fun _ => 0) "OPPOSING_REDUCTION_PRIORITY"
    (acceptAll (·.desiredWeight) "RISK_REDUCTION_ACCEPTED" state.2
      (reductionsOf proposals symbol)) (increasesOf proposals symbol)
    = accepted
  have hred : ∀ p ∈ reductionsOf proposals symbol, accepted.lookup p.proposalId
        = some (p.desiredWeight, ["RISK_REDUCTION_ACCEPTED"]) := by
    intro p hp
    rw [← haccepted, lookup_acceptAll_ne _ _ _ (id_not_mem_increasesOf hids hp)]
    exact lookup_reduction hids state.2 hp
  have hinc : ∀ p ∈ increasesOf proposals symbol, accepted.lookup p.proposalId
        = some (0, ["OPPOSING_REDUCTION_PRIORITY"]) := by
    intro p hp
    rw [← haccepted]
    exact lookup_acceptAll _ _ _ (hids.sublist (increasesOf_sublist.map _)) hp
  have hspent : spentOn proposals accepted symbol = 0 := by
    rw [spentOn_eq hnonzero (fun p hp => (granted_of_lookup (hred p hp)).1)
      fun p hp => (granted_of_lookup (hinc p hp)).1.ge]
    refine sum_eq_zero fun weight hweight => ?_
    obtain ⟨p, hp, rfl⟩ := mem_map.mp hweight
    exact (granted_of_lookup (hinc p hp)).1
  obtain ⟨first, hfirst⟩ := exists_mem_of_ne_nil _ hreductions
  obtain ⟨hmem, hsame, hneg⟩ := mem_reductionsOf.mp hfirst
  constructor
  case frame =>
    intro p hp hsymbol
    rw [← haccepted, lookup_acceptAll_ne]
    · exact lookup_other hids state.2 hp hsymbol
    · exact id_not_mem_of_symbol_ne hids (fun _ hq =>
        ⟨(mem_increasesOf.mp hq).1, (mem_increasesOf.mp hq).2.1⟩) hp hsymbol
  case gross => rw [hspent, add_zero]
  case nonneg => exact hstate
  case law =>
    constructor
    case entered =>
      intro p hp hsymbol
      rcases reduction_or_increase hnonzero hp hsymbol with hr | hi
      · exact ⟨_, hred p hr, cons_ne_nil _ _⟩
      · exact ⟨_, hinc p hi, cons_ne_nil _ _⟩
    case within =>
      rw [hspent]
      exact policy.symbol_bounds.1.le
    case reduced =>
      intro p hp hsymbol hneg
      have hr := mem_reductionsOf.mpr ⟨hp, hsymbol, hneg⟩
      exact (granted_of_lookup (hred p hr)).1
    case opposed =>
      intro p hp hsymbol hpos _
      have hi := mem_increasesOf.mpr ⟨hp, hsymbol, hpos⟩
      exact (granted_of_lookup (hinc p hi)).1
    case increased =>
      intro p hp hsymbol hpos
      have hi := mem_increasesOf.mpr ⟨hp, hsymbol, hpos⟩
      rw [(granted_of_lookup (hinc p hi)).1]
      exact ⟨le_refl 0, hpos.le⟩
    case cut =>
      intro p hp hsymbol hpos hnone
      exact absurd hneg (hnone first hmem hsame)
    case grossCapped =>
      intro p hp hsymbol hreason
      rcases reduction_or_increase hnonzero hp hsymbol with hr | hi
      · rw [(granted_of_lookup (hred p hr)).2] at hreason
        exact absurd hreason (by decide)
      · rw [(granted_of_lookup (hinc p hi)).2] at hreason
        exact absurd hreason (by decide)
    case symbolCapped =>
      intro p hp hsymbol hreason
      rcases reduction_or_increase hnonzero hp hsymbol with hr | hi
      · rw [(granted_of_lookup (hred p hr)).2] at hreason
        exact absurd hreason (by decide)
      · rw [(granted_of_lookup (hinc p hi)).2] at hreason
        exact absurd hreason (by decide)
    case ranked =>
      intro p hp p' hp' _ hsymbol' _ _ hpos
      rcases reduction_or_increase hnonzero hp' hsymbol' with hr | hi
      · rw [(granted_of_lookup (hred p' hr)).1] at hpos
        exact lt_asymm hpos (mem_reductionsOf.mp hr).2.2
      · rw [(granted_of_lookup (hinc p' hi)).1] at hpos
        exact lt_irrefl 0 hpos

theorem mem_rankReasons {grossFirst : Bool} {desired weight : ℚ} :
    ("GROSS_WEIGHT_CAPPED" ∈ rankReasons grossFirst desired weight →
      weight ≠ desired ∧ grossFirst = true)
    ∧ ("SYMBOL_WEIGHT_CAPPED" ∈ rankReasons grossFirst desired weight →
      weight ≠ desired ∧ grossFirst = false)
    ∧ rankReasons grossFirst desired weight ≠ [] := by
  unfold rankReasons
  by_cases hweight : weight = desired
  · simp [hweight]
  · cases grossFirst with
    | true => simp [hweight]
    | false => simp [hweight]

/-- The granted increases of a symbol, by falling utility. -/
structure Rationed (policy : CrossStrategyPortfolioPolicy)
    (proposals : List StrategyProposal) (symbol : String) (gross : ℚ)
    (accepted : Accepted) (entries : List (StrategyProposal × ℚ)) :
    Prop where
  covers : ∀ p ∈ increasesOf proposals symbol, ∃ weight, (p, weight) ∈ entries
  among : ∀ entry ∈ entries, entry.1 ∈ increasesOf proposals symbol
  lookup : ∀ entry ∈ entries, accepted.lookup entry.1.proposalId
    = some (entry.2, rankReasons (gross ≤ policy.maximumSymbolWeight) entry.1.desiredWeight entry.2)
  bounds : ∀ entry ∈ entries, 0 ≤ entry.2 ∧ entry.2 ≤ entry.1.desiredWeight
  cut : ∀ entry ∈ entries, entry.2 ≠ entry.1.desiredWeight →
    spentOn proposals accepted symbol = min policy.maximumSymbolWeight gross
  ranked : ∀ entry ∈ entries, ∀ later ∈ entries, utilityOf later.1 < utilityOf entry.1 →
    entry.2 ≠ entry.1.desiredWeight → later.2 = 0

/-- Of two increases, the one of less utility gets nothing when the other is
cut. -/
theorem ranked_entries {ranked : List StrategyProposal} (budget : ℚ)
    (hsorted : ranked.Pairwise fun a b => rankKey a ≤ rankKey b)
    (hrequests : ∀ request ∈ ranked.map (·.desiredWeight), 0 ≤ request) :
    ∀ entry ∈ ranked.zip (grant budget (ranked.map (·.desiredWeight))),
      ∀ later ∈ ranked.zip (grant budget (ranked.map (·.desiredWeight))),
        utilityOf later.1 < utilityOf entry.1 →
        entry.2 < entry.1.desiredWeight → later.2 = 0 := by
  generalize hgrants : grant budget (ranked.map (·.desiredWeight)) = grants
  have hutility : ∀ {a b : StrategyProposal}, rankKey a ≤ rankKey b →
      utilityOf b ≤ utilityOf a := by
    intro a b hle
    have hfirst : -utilityOf a ≤ -utilityOf b := Prod.Lex.monotone_fst _ _ hle
    exact neg_le_neg_iff.mp hfirst
  have hpairs : (ranked.zip grants).Pairwise fun a b =>
      rankKey a.1 ≤ rankKey b.1 := by
    have hlength : ranked.length ≤ grants.length := by rw [← hgrants, length_grant, length_map]
    rw [← pairwise_map (f := Prod.fst)
      (R := fun a b => rankKey a ≤ rankKey b), map_fst_zip hlength]
    exact hsorted
  have hcuts : (ranked.zip grants).Pairwise fun a b =>
      a.2 < a.1.desiredWeight → b.2 = 0 := by
    have hall := @pairwise_grant ℚ _ _ budget _ _ hrequests
    rw [hgrants, zip_map_left, pairwise_map] at hall
    exact hall
  have hfwd : (ranked.zip grants).Pairwise fun a b =>
      utilityOf b.1 < utilityOf a.1 → a.2 < a.1.desiredWeight → b.2 = 0 := by
    refine hcuts.imp ?_
    exact fun hcut _ => hcut
  have hbwd : (ranked.zip grants).Pairwise (flip fun a b =>
      utilityOf b.1 < utilityOf a.1 → a.2 < a.1.desiredWeight → b.2 = 0) :=
    hpairs.imp fun h hlt => absurd (hutility h) (not_le.mpr hlt)
  intro entry hentry later hlater
  exact hfwd.forall_of_forall_of_flip (fun e _ hlt => absurd hlt (lt_irrefl _)) hbwd hentry hlater

include hids in
include hnonzero in
/-- The loop over the ranked increases grants them from the budgets. -/
theorem rationed_of_ranked {gross : ℚ} (hgross : 0 ≤ gross) {accepted : Accepted} {after : Ranking}
    (hrun : Ranked (sortBy rankKey (increasesOf proposals symbol))
      ⟨min policy.maximumSymbolWeight gross, gross, accepted⟩ after)
    (hreduced : ∀ p ∈ reductionsOf proposals symbol, accepted.lookup p.proposalId
        = some (p.desiredWeight, ["RISK_REDUCTION_ACCEPTED"])) :
    (∀ p ∈ reductionsOf proposals symbol, after.accepted.lookup p.proposalId
        = some (p.desiredWeight, ["RISK_REDUCTION_ACCEPTED"]))
      ∧ (∃ entries, Rationed policy proposals symbol gross after.accepted entries)
      ∧ spentOn proposals after.accepted symbol ≤ min policy.maximumSymbolWeight gross
      ∧ after.grossRemaining = gross - spentOn proposals after.accepted symbol := by
  have hperm := sortBy_perm rankKey (increasesOf proposals symbol)
  have hsorted := sortBy_pairwise rankKey (increasesOf proposals symbol)
  generalize sortBy rankKey (increasesOf proposals symbol) = ranked at *
  have hbudget : 0 ≤ min policy.maximumSymbolWeight gross := le_min policy.symbol_bounds.1.le hgross
  have hrequests : ∀ request ∈ ranked.map (·.desiredWeight), 0 ≤ request := by
    intro request hrequest
    obtain ⟨p, hp, rfl⟩ := mem_map.mp hrequest
    exact (mem_increasesOf.mp (hperm.mem_iff.mp hp)).2.2.le
  have hranked := ranked_entries (min policy.maximumSymbolWeight gross) hsorted hrequests
  obtain ⟨hframe, hleft, hentries⟩ := hrun
  generalize hgrants : grant (min policy.maximumSymbolWeight gross)
    (ranked.map (·.desiredWeight)) = grants at *
  have hlength : grants.length = ranked.length := by rw [← hgrants, length_grant, length_map]
  have hred : ∀ p ∈ reductionsOf proposals symbol, after.accepted.lookup p.proposalId
        = some (p.desiredWeight, ["RISK_REDUCTION_ACCEPTED"]) := by
    intro p hp
    rw [hframe, hreduced p hp]
    intro hmem
    exact id_not_mem_increasesOf hids hp ((hperm.map _).mem_iff.mp hmem)
  have hcovers : ∀ p ∈ increasesOf proposals symbol, ∃ weight, (p, weight) ∈ ranked.zip grants := by
    intro p hp
    have hmem : p ∈ (ranked.zip grants).map Prod.fst := by
      rw [map_fst_zip hlength.ge]
      exact hperm.mem_iff.mpr hp
    obtain ⟨⟨q, weight⟩, hentry, rfl⟩ := mem_map.mp hmem
    exact ⟨weight, hentry⟩
  have hrequest : ∀ entry ∈ ranked.zip grants, (entry.1.desiredWeight, entry.2)
        ∈ (ranked.map (·.desiredWeight)).zip grants := by
    intro entry hentry
    rw [zip_map_left]
    exact mem_map_of_mem (f := Prod.map (·.desiredWeight) id) hentry
  have hbounds : ∀ entry ∈ ranked.zip grants, 0 ≤ entry.2 ∧ entry.2 ≤ entry.1.desiredWeight := by
    intro entry hentry
    have hnonneg := grant_nonneg hbudget hrequests
    rw [hgrants] at hnonneg
    refine ⟨hnonneg _ (of_mem_zip hentry).2, ?_⟩
    have hmem := hrequest entry hentry
    rw [← hgrants] at hmem
    exact grant_le hmem
  have hgranted : ∀ entry ∈ ranked.zip grants,
      granted after.accepted entry.1 = entry.2 := fun entry hentry =>
    (granted_of_lookup (hentries entry hentry)).1
  have hspent : spentOn proposals after.accepted symbol = grants.sum := by
    rw [spentOn_eq hnonzero (fun p hp => (granted_of_lookup (hred p hp)).1)]
    · rw [← (hperm.map (granted after.accepted)).sum_eq]
      refine congrArg _ ?_
      calc ranked.map (granted after.accepted)
          = ((ranked.zip grants).map Prod.fst).map (granted after.accepted) := by
            rw [map_fst_zip hlength.ge]
        _ = (ranked.zip grants).map Prod.snd := by
            rw [map_map]
            exact map_congr_left hgranted
        _ = grants := map_snd_zip hlength.le
    · intro p hp
      obtain ⟨weight, hentry⟩ := hcovers p hp
      exact (hgranted _ hentry).symm ▸ (hbounds _ hentry).1
  refine ⟨hred, ⟨ranked.zip grants, ?_⟩, ?_, ?_⟩
  · constructor
    case covers => exact hcovers
    case among =>
      intro entry hentry
      exact hperm.mem_iff.mp (of_mem_zip hentry).1
    case lookup =>
      intro entry hentry
      rw [hentries entry hentry]
      have hblame : gross ≤ min policy.maximumSymbolWeight gross
          ↔ gross ≤ policy.maximumSymbolWeight := by
        rw [le_min_iff]
        exact and_iff_left (le_refl gross)
      simp only [hblame]
    case bounds => exact hbounds
    case cut =>
      intro entry hentry hne
      rw [hspent, ← hgrants]
      refine sum_grant_of_cut hrequests (hgrants ▸ hrequest entry hentry) ?_
      exact lt_of_le_of_ne (hbounds entry hentry).2 hne
    case ranked =>
      intro entry hentry later hlater hutility hne
      refine hranked entry hentry later hlater hutility ?_
      exact lt_of_le_of_ne (hbounds entry hentry).2 hne
  · rw [hspent, ← hgrants]
    exact sum_grant_le hbudget
  · rw [hspent, hleft]

include hids in
include hnonzero in
/-- A symbol whose increases nothing opposes. -/
theorem symbolDone_ranked {state : ℚ × Accepted} (hstate : 0 ≤ state.1) {after : Ranking}
    (hrun : Ranked (sortBy rankKey (increasesOf proposals symbol))
      ⟨min policy.maximumSymbolWeight state.1, state.1,
        acceptAll (·.desiredWeight) "RISK_REDUCTION_ACCEPTED" state.2
          (reductionsOf proposals symbol)⟩ after)
    (hone : ¬ (reductionsOf proposals symbol ≠ [] ∧ increasesOf proposals symbol ≠ [])) :
    SymbolDone policy proposals symbol state (after.grossRemaining, after.accepted) := by
  have hframe := hrun.frame
  obtain ⟨hred, ⟨entries, hrationed⟩, hspent, hgross⟩ :=
    rationed_of_ranked hids hnonzero hstate hrun fun p hp => lookup_reduction hids state.2 hp
  have hentry : ∀ p ∈ increasesOf proposals symbol, ∃ weight,
      (p, weight) ∈ entries ∧ granted after.accepted p = weight
        ∧ reasonsFor after.accepted p = rankReasons
          (state.1 ≤ policy.maximumSymbolWeight) p.desiredWeight weight := by
    intro p hp
    obtain ⟨weight, hmem⟩ := hrationed.covers p hp
    exact ⟨weight, hmem, granted_of_lookup (hrationed.lookup _ hmem)⟩
  -- a cut uses up the smaller of the two budgets
  have hcut : ∀ p ∈ increasesOf proposals symbol, granted after.accepted p ≠ p.desiredWeight →
      (state.1 ≤ policy.maximumSymbolWeight → after.grossRemaining = 0)
        ∧ (¬ state.1 ≤ policy.maximumSymbolWeight →
          spentOn proposals after.accepted symbol = policy.maximumSymbolWeight) := by
    intro p hp hne
    obtain ⟨weight, hmem, hweight, -⟩ := hentry p hp
    rw [hweight] at hne
    have hall := hrationed.cut _ hmem hne
    constructor
    · intro hle
      rw [hgross, hall, min_eq_right hle, sub_self]
    · intro hlt
      rw [hall, min_eq_left (not_le.mp hlt).le]
  constructor
  case frame =>
    intro p hp hsymbol
    rw [hframe]
    · exact lookup_other hids state.2 hp hsymbol
    · refine id_not_mem_of_symbol_ne hids (fun q hq => ?_) hp hsymbol
      have hq' := mem_increasesOf.mp ((sortBy_perm _ _).mem_iff.mp hq)
      exact ⟨hq'.1, hq'.2.1⟩
  case gross => rw [hgross, sub_add_cancel]
  case nonneg =>
    rw [hgross]
    exact sub_nonneg.mpr (hspent.trans (min_le_right _ _))
  case law =>
    constructor
    case entered =>
      intro p hp hsymbol
      rcases reduction_or_increase hnonzero hp hsymbol with hr | hi
      · exact ⟨_, hred p hr, cons_ne_nil _ _⟩
      · obtain ⟨weight, hmem⟩ := hrationed.covers p hi
        exact ⟨_, hrationed.lookup _ hmem, mem_rankReasons.2.2⟩
    case within => exact hspent.trans (min_le_left _ _)
    case reduced =>
      intro p hp hsymbol hneg
      exact (granted_of_lookup (hred p (mem_reductionsOf.mpr ⟨hp, hsymbol, hneg⟩))).1
    case opposed =>
      rintro p hp hsymbol hpos ⟨other, hother, hsame, hneg⟩
      refine absurd ⟨?_, ?_⟩ hone
      · exact ne_nil_of_mem (mem_reductionsOf.mpr ⟨hother, hsame, hneg⟩)
      · exact ne_nil_of_mem (mem_increasesOf.mpr ⟨hp, hsymbol, hpos⟩)
    case increased =>
      intro p hp hsymbol hpos
      obtain ⟨weight, hmem, hweight, -⟩ := hentry p (mem_increasesOf.mpr ⟨hp, hsymbol, hpos⟩)
      rw [hweight]
      exact hrationed.bounds _ hmem
    case cut =>
      intro p hp hsymbol hpos _ hne
      obtain ⟨hfirst, hsecond⟩ := hcut p (mem_increasesOf.mpr ⟨hp, hsymbol, hpos⟩) hne
      by_cases hle : state.1 ≤ policy.maximumSymbolWeight
      · exact .inl (hfirst hle)
      · exact .inr (hsecond hle)
    case grossCapped =>
      intro p hp hsymbol hreason
      rcases reduction_or_increase hnonzero hp hsymbol with hr | hi
      · rw [(granted_of_lookup (hred p hr)).2] at hreason
        exact absurd hreason (by decide)
      · obtain ⟨weight, hmem, hweight, hreasons⟩ := hentry p hi
        rw [hreasons] at hreason
        obtain ⟨hne, hblame⟩ := mem_rankReasons.1 hreason
        exact (hcut p hi (hweight ▸ hne)).1 (of_decide_eq_true hblame)
    case symbolCapped =>
      intro p hp hsymbol hreason
      rcases reduction_or_increase hnonzero hp hsymbol with hr | hi
      · rw [(granted_of_lookup (hred p hr)).2] at hreason
        exact absurd hreason (by decide)
      · obtain ⟨weight, hmem, hweight, hreasons⟩ := hentry p hi
        rw [hreasons] at hreason
        obtain ⟨hne, hblame⟩ := mem_rankReasons.2.1 hreason
        exact (hcut p hi (hweight ▸ hne)).2 (of_decide_eq_false hblame)
    case ranked =>
      intro p hp p' hp' hsymbol hsymbol' hutility hne hpos
      rcases reduction_or_increase hnonzero hp' hsymbol' with hr' | hi'
      · rw [(granted_of_lookup (hred p' hr')).1] at hpos
        exact lt_asymm hpos (mem_reductionsOf.mp hr').2.2
      · rcases reduction_or_increase hnonzero hp hsymbol with hr | hi
        · exact hne (granted_of_lookup (hred p hr)).1
        · obtain ⟨weight, hmem, hweight, -⟩ := hentry p hi
          obtain ⟨weight', hmem', hweight', -⟩ := hentry p' hi'
          have hzero : weight' = 0 := hrationed.ranked _ hmem _ hmem' hutility (hweight ▸ hne)
          rw [hweight', hzero] at hpos
          exact lt_irrefl 0 hpos

include hids in
include hnonzero in
theorem symbolStep_done {state : ℚ × Accepted} (hstate : 0 ≤ state.1) :
    SymbolDone policy proposals symbol state (symbolStep policy proposals state symbol) := by
  unfold symbolStep
  by_cases hboth : reductionsOf proposals symbol ≠ [] ∧ increasesOf proposals symbol ≠ []
  · rw [if_pos hboth]
    exact symbolDone_opposed hids hnonzero hstate hboth.1
  · rw [if_neg hboth]
    have hranked : ((sortBy rankKey (increasesOf proposals symbol)).map
        (·.proposalId)).Nodup :=
      ((sortBy_perm _ _).map _).nodup_iff.mpr (hids.sublist (increasesOf_sublist.map _))
    exact symbolDone_ranked hids hnonzero hstate (ranked_foldl hranked _) hboth

end OneSymbol

-- ==== all symbols

section Symbols

variable {policy : CrossStrategyPortfolioPolicy} {proposals : List StrategyProposal}

/-- The loop over the symbols, with some of them done. -/
structure Allocating (policy : CrossStrategyPortfolioPolicy)
    (proposals : List StrategyProposal) (done : List String)
    (state : ℚ × Accepted) : Prop where
  nonneg : 0 ≤ state.1
  spent : state.1 + (done.map (spentOn proposals state.2)).sum = policy.maximumGrossWeight
  laws : ∀ symbol ∈ done, SymbolLaw policy proposals symbol state.1 state.2

/-- One more symbol. -/
theorem Allocating.step (hids : (proposals.map (·.proposalId)).Nodup)
    (hnonzero : ∀ p ∈ proposals, p.desiredWeight ≠ 0) {done : List String} {state : ℚ × Accepted}
    (h : Allocating policy proposals done state) {symbol : String} (hfresh : symbol ∉ done) :
    Allocating policy proposals (done ++ [symbol]) (symbolStep policy proposals state symbol) := by
  have hstep := @symbolStep_done policy proposals symbol hids hnonzero state h.nonneg
  have hspentHere : 0 ≤ spentOn proposals (symbolStep policy proposals state symbol).2 symbol := by
    refine List.sum_nonneg fun weight hweight => ?_
    obtain ⟨p, -, rfl⟩ := mem_map.mp hweight
    exact le_max_left _ _
  have hkept : ∀ other ∈ done, SymbolLaw policy proposals other
        (symbolStep policy proposals state symbol).1
        (symbolStep policy proposals state symbol).2
      ∧ spentOn proposals (symbolStep policy proposals state symbol).2 other
        = spentOn proposals state.2 other := by
    intro other hother
    refine (h.laws other hother).mono (fun p hp hsymbol => ?_) fun hzero => ?_
    · refine hstep.frame p hp ?_
      rw [hsymbol]
      exact fun heq => hfresh (heq ▸ hother)
    · have hgross := hstep.gross
      have hnonneg := hstep.nonneg
      linarith
  constructor
  case nonneg => exact hstep.nonneg
  case spent =>
    have hgross := hstep.gross
    have hspent := h.spent
    rw [map_append, sum_append, map_congr_left fun other hother =>
      (hkept other hother).2]
    simp only [map_cons, map_nil, sum_cons, sum_nil]
    linarith
  case laws =>
    intro other hother
    rcases mem_append.mp hother with hother | hother
    · exact (hkept other hother).1
    · rw [mem_singleton.mp hother]
      exact hstep.law

theorem allocating_foldl (hids : (proposals.map (·.proposalId)).Nodup)
    (hnonzero : ∀ p ∈ proposals, p.desiredWeight ≠ 0) {done symbols : List String}
    {state : ℚ × Accepted} (h : Allocating policy proposals done state)
    (hsymbols : (done ++ symbols).Nodup) :
    Allocating policy proposals (done ++ symbols)
      (symbols.foldl (symbolStep policy proposals) state) := by
  induction symbols generalizing done state with
  | nil => simpa using h
  | cons symbol symbols ih =>
    have hfresh : symbol ∉ done := fun hmem =>
      (nodup_append.mp hsymbols).2.2 _ hmem _ mem_cons_self rfl
    have hrest := ih (h.step hids hnonzero hfresh) (by simpa using hsymbols)
    simpa using hrest

/-- The allocation of all proposals: what is left of the gross budget and what
was granted make up the whole of it, and every symbol's law holds. -/
theorem allocate_law (policy : CrossStrategyPortfolioPolicy)
    (hids : (proposals.map (·.proposalId)).Nodup)
    (hnonzero : ∀ p ∈ proposals, p.desiredWeight ≠ 0) :
    0 ≤ (allocate policy proposals).1
    ∧ (allocate policy proposals).1 + (proposals.map fun p =>
        max 0 (granted (allocate policy proposals).2 p)).sum
      = policy.maximumGrossWeight
    ∧ ∀ p ∈ proposals, SymbolLaw policy proposals p.symbol
      (allocate policy proposals).1 (allocate policy proposals).2 := by
  have hstart : Allocating policy proposals [] (policy.maximumGrossWeight, []) :=
    ⟨policy.gross_bounds.1.le, by simp, fun _ h => absurd h not_mem_nil⟩
  have hnodup : (sortedDistinct (proposals.map (·.symbol))).Nodup :=
    (sortedDistinct_pairwise _).imp fun hlt => ne_of_lt hlt
  have hall := allocating_foldl hids hnonzero hstart hnodup
  have hsymbols : ∀ p ∈ proposals,
      p.symbol ∈ sortedDistinct (proposals.map (·.symbol)) := fun p hp =>
    mem_sortedDistinct.mpr (mem_map_of_mem hp)
  refine ⟨hall.nonneg, ?_, fun p hp => hall.laws _ (hsymbols p hp)⟩
  have hperm := flatMap_filter_perm StrategyProposal.symbol hnodup hsymbols
  have hspent := hall.spent
  rw [← (hperm.map _).sum_eq, map_flatMap, flatMap_def, sum_flatten, map_map]
  exact hspent

end Symbols

end MarketRegimeAlpha.Strategies
