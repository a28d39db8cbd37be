/-
The allocation law of a Portfolio proposal.

# Where the numbers come from

The included lines are the selected Opportunities in order, and their
weights are the base and a part each of what the base leaves of the cap
(`included_weights`). The parts are `handOut`'s, so the weights never
grow, differ by at most a quantum, and come to the cap or to the single
limit of every line, the lesser of the two. Every ratio the constructors
check is then a bound on one of these.
-/
import MarketRegimeAlpha.DecisionSupport.Portfolio
import MarketRegimeAlpha.Lib.Rationing

namespace MarketRegimeAlpha.DecisionSupport

open Lib List

variable {policy : PortfolioPolicyPlan} {prepared : PreparedPortfolioInputs}
  {lineId : PreparedPortfolioOpportunity → Nat}

-- ==== the caps

theorem PortfolioPolicyPlan.quantum_pos : 0 < policy.quantum := by
  unfold PortfolioPolicyPlan.quantum
  positivity

theorem PortfolioPolicyPlan.single_ratio :
    0 ≤ policy.maximumSingleWeight ∧ policy.maximumSingleWeight ≤ 1 :=
  policy.ratios _ (by simp)

theorem PortfolioPolicyPlan.grossCap_bounds :
    0 ≤ policy.grossCap ∧ policy.grossCap ≤ 1
      ∧ policy.grossCap ≤ 1 - policy.minimumCashWeight := by
  have hgross := policy.ratios policy.maximumGrossWeight (by simp)
  have hnet := policy.ratios policy.maximumNetWeight (by simp)
  have hcash := policy.ratios policy.minimumCashWeight (by simp)
  have hturnover := policy.ratios policy.maximumTurnover (by simp)
  refine ⟨?_, ?_, min_le_right _ _⟩
  · apply le_min (le_min (le_min hgross.1 hnet.1) hturnover.1)
    linarith only [hcash.2]
  · exact (min_le_left _ _).trans
      ((min_le_right _ _).trans hturnover.2)

def PortfolioPolicyPlan.part (policy : PortfolioPolicyPlan) (base : ℚ) : ℚ :=
  min policy.quantum (policy.maximumSingleWeight - base)

variable {count : Nat}

theorem PortfolioPolicyPlan.rawWeight_nonneg : 0 ≤ policy.rawWeight count := by
  unfold PortfolioPolicyPlan.rawWeight
  split
  next => exact le_rfl
  next =>
    apply le_min policy.single_ratio.1
    exact div_nonneg policy.grossCap_bounds.1 (Nat.cast_nonneg count)

variable (count) in
theorem PortfolioPolicyPlan.baseWeight_bounds :
    0 ≤ policy.baseWeight count
      ∧ policy.baseWeight count ≤ policy.rawWeight count
      ∧ policy.rawWeight count < policy.baseWeight count + policy.quantum :=
  quantize_truncate policy.quantum_pos policy.rawWeight_nonneg

theorem PortfolioPolicyPlan.baseWeight_le_single :
    policy.baseWeight count ≤ policy.maximumSingleWeight := by
  apply (policy.baseWeight_bounds count).2.1.trans
  unfold PortfolioPolicyPlan.rawWeight
  split
  next => exact policy.single_ratio.1
  next => exact min_le_left _ _

theorem PortfolioPolicyPlan.part_nonneg :
    0 ≤ policy.part (policy.baseWeight count) :=
  le_min policy.quantum_pos.le (sub_nonneg.mpr policy.baseWeight_le_single)

/-- The bases of `count` lines are within the cap. -/
theorem PortfolioPolicyPlan.remaining_nonneg :
    0 ≤ policy.grossCap - policy.baseWeight count * count := by
  by_cases hzero : count = 0
  · subst hzero
    simpa using policy.grossCap_bounds.1
  · have hle := (policy.baseWeight_bounds count).2.1
    unfold PortfolioPolicyPlan.rawWeight at hle
    rw [if_neg hzero] at hle
    have hpos : (0 : ℚ) < count := by exact_mod_cast Nat.pos_of_ne_zero hzero
    apply sub_nonneg.mpr
    exact (le_div_iff₀ hpos).mp (hle.trans (min_le_right _ _))

-- ==== the lines

section Lines

variable {status : PortfolioProposalStatus} {ids : List Nat} {base : ℚ} {remaining : ℚ}
  {items : List (PreparedPortfolioOpportunity × Nat)}

theorem planLines_source (remaining : ℚ) (items : List (PreparedPortfolioOpportunity × Nat)) :
    (planLines policy status ids base lineId remaining items).map
        (fun line => (line.source, line.ordinal)) = items := by
  induction items generalizing remaining with
  | nil => rfl
  | cons pair items ih =>
    unfold planLines
    split
    next => simp [ih]
    next =>
      split
      next => simp [ih]
      next => simp [ih]

theorem planLines_weight_zero {line : PortfolioLinePlan}
    (hline : line ∈ planLines policy status ids base lineId remaining items)
    (hstatus : line.status ≠ .included) : line.proposedWeight = 0 := by
  induction items generalizing remaining with
  | nil => cases hline
  | cons pair items ih =>
    unfold planLines at hline
    split at hline
    next =>
      rcases mem_cons.mp hline with rfl | hline
      · rfl
      · exact ih hline
    next =>
      split at hline
      next =>
        rcases mem_cons.mp hline with rfl | hline
        · rfl
        · exact ih hline
      next =>
        rcases mem_cons.mp hline with rfl | hline
        · exact absurd rfl hstatus
        · exact ih hline

theorem planLines_notEstimable :
    (planLines policy .notEstimable ids base lineId remaining items).filter
      (·.status = .included) = [] := by
  induction items with
  | nil => rfl
  | cons pair items ih =>
    unfold planLines
    simpa using ih

variable (policy ids base lineId) in
/-- The included lines are of the selected Opportunities, in order, and
their weights are the base and a part each. -/
theorem included_weights (hstatus : status ≠ .notEstimable) (remaining : ℚ)
    (items : List (PreparedPortfolioOpportunity × Nat)) :
    let lines := planLines policy status ids base lineId remaining items
    let included := lines.filter (·.status = .included)
    let chosen := (items.map (·.1)).filter (·.opportunityId ∈ ids)
    included.map (·.source) = chosen
      ∧ included.map (·.proposedWeight)
        = (handOut (policy.part base) chosen.length remaining).map (base + ·) := by
  induction items generalizing remaining with
  | nil => exact ⟨rfl, rfl⟩
  | cons pair items ih =>
    obtain ⟨item, ordinal⟩ := pair
    unfold planLines
    rw [if_neg hstatus]
    by_cases hid : item.opportunityId ∈ ids
    · rw [if_neg (not_not.mpr hid)]
      have hpart : min (min policy.quantum remaining)
            (policy.maximumSingleWeight - base)
          = min (policy.part base) remaining := min_right_comm _ _ _
      obtain ⟨hsource, hweight⟩ := ih (remaining - min (policy.part base)
        remaining)
      dsimp only at hsource hweight ⊢
      rw [hpart]
      simp only [map_cons, filter_cons, hid, decide_true, if_true,
        length_cons, handOut]
      rw [hsource, hweight]
      exact ⟨rfl, rfl⟩
    · rw [if_pos hid]
      obtain ⟨hsource, hweight⟩ := ih remaining
      dsimp only at hsource hweight ⊢
      simp only [map_cons, filter_cons, hid, decide_false]
      exact ⟨hsource, hweight⟩

end Lines

-- ==== the selection

/-- Filtering by the keys of a part of a list of distinct keys leaves
that part. -/
theorem filter_mem_map {α κ : Type _} [DecidableEq κ] (key : α → κ)
    {l part : List α} (hsub : part.Sublist l) (hnodup : (l.map key).Nodup) :
    l.filter (key · ∈ part.map key) = part := by
  induction hsub with
  | slnil => rfl
  | @cons part l a hsub ih =>
    obtain ⟨hnot, hnodup⟩ := nodup_cons.mp hnodup
    have hout : key a ∉ part.map key := fun hin => hnot ((hsub.map key).subset hin)
    rw [filter_cons_of_neg (by simpa using hout)]
    exact ih hnodup
  | @cons_cons part l a hsub ih =>
    obtain ⟨hnot, hnodup⟩ := nodup_cons.mp hnodup
    rw [filter_cons_of_pos (by simp)]
    congr 1
    rw [← ih hnodup]
    apply filter_congr
    intro b hb
    have hne : key b ≠ key a := fun heq => hnot (heq ▸ mem_map_of_mem hb)
    rw [ih hnodup]
    simp [hne]

theorem selected_sublist :
    (selected prepared policy).Sublist prepared.opportunities := by
  unfold selected
  split
  next => exact (take_sublist _ _).trans filter_sublist
  next => exact nil_sublist _

theorem selected_eq_take : selected prepared policy
    = prepared.actionable.take (selected prepared policy).length := by
  unfold selected
  split
  next => rw [length_take, ← take_take, take_length]
  next => rfl

theorem length_selected_le :
    (selected prepared policy).length ≤ policy.maximumLineCount := by
  unfold selected
  split
  next => exact length_take_le _ _
  next => exact Nat.zero_le _

theorem selected_eq_nil (h : proposalStatus prepared policy ≠ .proposed) :
    selected prepared policy = [] := by
  unfold proposalStatus at h
  split at h
  next hfew => exact if_neg (not_le.mpr hfew)
  next =>
    split at h
    next hnil => exact hnil
    next => exact absurd rfl h

/-- A proposal is made when enough is estimable and something is
actionable. -/
theorem proposalStatus_proposed : proposalStatus prepared policy = .proposed
    ↔ policy.minimumEstimableCount ≤ prepared.estimableCount
      ∧ prepared.actionable ≠ [] := by
  have hlines : policy.maximumLineCount ≠ 0 := by
    have hcount := policy.counts.2
    omega
  unfold proposalStatus
  by_cases hfew : prepared.estimableCount < policy.minimumEstimableCount
  · rw [if_pos hfew]
    simp [not_le.mpr hfew]
  · rw [if_neg hfew]
    have hmany := not_lt.mp hfew
    have hnil : selected prepared policy = [] ↔ prepared.actionable = [] := by
      unfold selected
      rw [if_pos hmany, take_eq_nil_iff]
      simp [hlines]
    split
    next hnone => simp [hnil.mp hnone]
    next hsome => simp [hmany, mt hnil.mpr hsome]

-- ==== the law

def PortfolioProposalAuthority.included (p : PortfolioProposalAuthority) :
    List PortfolioLinePlan :=
  p.lines.filter (·.status = .included)

structure AllocationLaw (policy : PortfolioPolicyPlan)
    (prepared : PreparedPortfolioInputs) (p : PortfolioProposalAuthority) :
    Prop where
  roster : p.lines.map (fun line => (line.source, line.ordinal))
    = prepared.opportunities.zipIdx 1
  proposed_iff : p.status = .proposed
    ↔ policy.minimumEstimableCount ≤ prepared.estimableCount
      ∧ prepared.actionable ≠ []
  gross_sum : p.grossWeight = (p.lines.map (·.proposedWeight)).sum
  gross : p.status = .proposed → p.grossWeight
    = min policy.grossCap (p.included.length * policy.maximumSingleWeight)
  cash : p.cashWeight = 1 - p.grossWeight
  cash_minimum : p.status = .proposed →
    policy.minimumCashWeight ≤ p.cashWeight
  weights : ∀ line ∈ p.lines, 0 ≤ line.proposedWeight
    ∧ line.proposedWeight ≤ policy.maximumSingleWeight
  antitone : ∀ a ∈ p.included, ∀ b ∈ p.included,
    a.ordinal ≤ b.ordinal → b.proposedWeight ≤ a.proposedWeight
  near : ∀ a ∈ p.included, ∀ b ∈ p.included,
    |a.proposedWeight - b.proposedWeight| ≤ 1 / 10 ^ policy.decimalPlaces
  count : p.included.length ≤ policy.maximumLineCount
  first : p.included.map (·.source)
    = prepared.actionable.take p.included.length
  excluded : ∀ line ∈ p.lines, line.status ≠ .included →
    line.proposedWeight = 0
  otherwise : p.status ≠ .proposed →
    ∀ line ∈ p.lines, line.proposedWeight = 0

theorem sum_filter_eq {α : Type _} (keep : α → Bool) (weight : α → ℚ)
    {l : List α} (h : ∀ a ∈ l, ¬ keep a → weight a = 0) :
    (l.map weight).sum = ((l.filter keep).map weight).sum := by
  induction l with
  | nil => rfl
  | cons a l ih =>
    have hrest := ih fun b hb => h b (mem_cons_of_mem a hb)
    by_cases hkeep : keep a
    · rw [filter_cons_of_pos hkeep]
      simp [hrest]
    · rw [filter_cons_of_neg hkeep]
      simp [hrest, h a mem_cons_self hkeep]

section Law

def plannedLines (prepared : PreparedPortfolioInputs) (policy : PortfolioPolicyPlan)
    (lineId : PreparedPortfolioOpportunity → Nat) : List PortfolioLinePlan :=
  let chosen := selected prepared policy
  let baseWeight := policy.baseWeight chosen.length
  planLines policy (proposalStatus prepared policy)
    (chosen.map (·.opportunityId)) baseWeight lineId
    (policy.grossCap - baseWeight * chosen.length)
    (prepared.opportunities.zipIdx 1)

def parts (prepared : PreparedPortfolioInputs) (policy : PortfolioPolicyPlan) :
    List ℚ :=
  let count := (selected prepared policy).length
  handOut (policy.part (policy.baseWeight count)) count
    (policy.grossCap - policy.baseWeight count * count)

theorem mem_parts {x : ℚ} (hx : x ∈ parts prepared policy) : 0 ≤ x
    ∧ x ≤ policy.part (policy.baseWeight (selected prepared policy).length) := by
  obtain ⟨h0, hpart, -⟩ := mem_handOut policy.part_nonneg policy.remaining_nonneg hx
  exact ⟨h0, hpart⟩

variable (hids : (prepared.opportunities.map (·.opportunityId)).Nodup) {line : PortfolioLinePlan}
include hids

variable (policy lineId) in
theorem plannedLines_included :
    let included := (plannedLines prepared policy lineId).filter
      (·.status = .included)
    included.map (·.source) = selected prepared policy
      ∧ included.map (·.proposedWeight) = (parts prepared policy).map
        (policy.baseWeight (selected prepared policy).length + ·) := by
  unfold plannedLines parts
  by_cases hstatus : proposalStatus prepared policy = .notEstimable
  · have hnil : selected prepared policy = [] := selected_eq_nil (by simp [hstatus])
    dsimp only
    rw [hstatus, planLines_notEstimable, hnil]
    exact ⟨rfl, rfl⟩
  · obtain ⟨hsource, hweight⟩ := included_weights policy lineId
      ((selected prepared policy).map (·.opportunityId))
      (policy.baseWeight (selected prepared policy).length) hstatus
      (policy.grossCap - policy.baseWeight (selected prepared policy).length
        * (selected prepared policy).length)
      (prepared.opportunities.zipIdx 1)
    rw [zipIdx_map_fst, filter_mem_map _ selected_sublist hids] at hsource
    rw [zipIdx_map_fst, filter_mem_map _ selected_sublist hids] at hweight
    exact ⟨hsource, hweight⟩

theorem included_weight
    (hline : line ∈ (plannedLines prepared policy lineId).filter (·.status = .included)) :
    ∃ x ∈ parts prepared policy,
    line.proposedWeight
      = policy.baseWeight (selected prepared policy).length + x := by
  have hmem := mem_map_of_mem (f := PortfolioLinePlan.proposedWeight) hline
  rw [(plannedLines_included policy lineId hids).2] at hmem
  obtain ⟨x, hx, heq⟩ := mem_map.mp hmem
  exact ⟨x, hx, heq.symm⟩

theorem plannedLines_weights
    (hline : line ∈ plannedLines prepared policy lineId) :
    0 ≤ line.proposedWeight
      ∧ line.proposedWeight ≤ policy.maximumSingleWeight := by
  by_cases hstatus : line.status = .included
  · obtain ⟨x, hx, heq⟩ := included_weight hids
      (mem_filter.mpr ⟨hline, by simpa using hstatus⟩)
    obtain ⟨h0, hpart⟩ := mem_parts hx
    have hbase := (policy.baseWeight_bounds
      (selected prepared policy).length).1
    have hlimit := hpart.trans (min_le_right _ _)
    rw [heq]
    constructor
    · linarith only [h0, hbase]
    · linarith only [hlimit]
  · rw [planLines_weight_zero hline hstatus]
    exact ⟨le_rfl, policy.single_ratio.1⟩

variable (policy lineId) in
theorem plannedLines_sum :
    ((plannedLines prepared policy lineId).map (·.proposedWeight)).sum
      = min policy.grossCap ((selected prepared policy).length
        * policy.maximumSingleWeight) := by
  have hfilter := sum_filter_eq (fun line : PortfolioLinePlan =>
      decide (line.status = .included)) (·.proposedWeight)
    (l := plannedLines prepared policy lineId) fun line hline hstatus =>
      planLines_weight_zero hline (by simpa using hstatus)
  rw [hfilter, (plannedLines_included policy lineId hids).2, sum_map_add,
    map_const', sum_replicate, nsmul_eq_mul, map_id']
  unfold parts
  dsimp only
  rw [length_handOut]
  by_cases hzero : (selected prepared policy).length = 0
  · rw [hzero]
    have hcap := policy.grossCap_bounds.1
    simp [handOut, min_eq_right hcap]
  · rw [mul_comm (policy.baseWeight _)]
    have hbounds := policy.baseWeight_bounds
      (selected prepared policy).length
    unfold PortfolioPolicyPlan.rawWeight at hbounds
    rw [if_neg hzero] at hbounds
    exact sum_shares (Nat.pos_of_ne_zero hzero) policy.quantum_pos
      hbounds.2.1 hbounds.2.2

variable (policy lineId) in
theorem plannedLines_sum_bounds :
    0 ≤ ((plannedLines prepared policy lineId).map (·.proposedWeight)).sum
      ∧ ((plannedLines prepared policy lineId).map (·.proposedWeight)).sum
        ≤ policy.grossCap := by
  rw [plannedLines_sum policy lineId hids]
  refine ⟨le_min policy.grossCap_bounds.1 ?_, min_le_left _ _⟩
  exact mul_nonneg (Nat.cast_nonneg _) policy.single_ratio.1

variable (policy lineId) in
theorem plannedLines_constructed :
    (plannedLines prepared policy lineId).mapM PortfolioLinePlan.postInit
      = .ok (plannedLines prepared policy lineId) := by
  apply mapM_ok_self
  intro line hline
  obtain ⟨h0, hle⟩ := plannedLines_weights hids hline
  have hratio : 0 ≤ line.proposedWeight ∧ line.proposedWeight ≤ 1 :=
    ⟨h0, hle.trans policy.single_ratio.2⟩
  unfold PortfolioLinePlan.postInit ratio Lib.require
  rw [if_pos hratio]
  rfl

end Law

-- ==== building

theorem ratio_eq {value : ℚ} {label : String} (h : 0 ≤ value ∧ value ≤ 1) :
    ratio value label = .ok value := by
  unfold ratio Lib.require
  rw [if_pos h]
  rfl

theorem count_statuses (lines : List PortfolioLinePlan) :
    lines.countP (·.status = .included) + lines.countP (·.status = .excluded)
      + lines.countP (·.status = .notEstimable) = lines.length := by
  induction lines with
  | nil => rfl
  | cons line lines ih =>
    simp only [countP_cons, length_cons]
    cases line.status with
    | included => simp; omega
    | excluded => simp; omega
    | notEstimable => simp; omega

/-- The proposal whose lines are `plannedLines`. -/
def proposalOf (portfolioProposalId : Nat) (prepared : PreparedPortfolioInputs)
    (policy : PortfolioPolicyPlan) (requestIdentity requestSha256 : String) (commandReceiptId : Nat)
    (recordedAt : Int) (lineId : PreparedPortfolioOpportunity → Nat) :
    PortfolioProposalAuthority :=
  let lines := plannedLines prepared policy lineId
  let gross := (lines.map (·.proposedWeight)).sum
  { portfolioProposalId := portfolioProposalId
    prepared := prepared
    policy := policy
    status := proposalStatus prepared policy
    lines := lines
    includedCount := lines.countP (·.status = .included)
    excludedCount := lines.countP (·.status = .excluded)
    notEstimableCount := lines.countP (·.status = .notEstimable)
    grossWeight := gross
    netWeight := gross
    cashWeight := 1 - gross
    turnoverWeight := gross
    requestIdentity := requestIdentity
    requestSha256 := requestSha256
    commandReceiptId := commandReceiptId
    recordedAt := recordedAt }

section Build

variable {portfolioProposalId commandReceiptId : Nat} {requestIdentity requestSha256 : String}
  {recordedAt : Int} (hids : (prepared.opportunities.map (·.opportunityId)).Nodup)
include hids

theorem proposalOf_postInit :
    (proposalOf portfolioProposalId prepared policy requestIdentity
      requestSha256 commandReceiptId recordedAt lineId).postInit
      = (do
        Lib.require (prepared.opportunitySetRecordedAt ≤ recordedAt)
          (.valueError "PortfolioProposal cannot precede OpportunitySet")
        return proposalOf portfolioProposalId prepared policy requestIdentity
          requestSha256 commandReceiptId recordedAt lineId) := by
  obtain ⟨h0, hcap⟩ := plannedLines_sum_bounds policy lineId hids
  have hgross := And.intro h0 (hcap.trans policy.grossCap_bounds.2.1)
  have hcash := And.intro (sub_nonneg.mpr hgross.2)
    (sub_le_self (1 : ℚ) hgross.1)
  have hcounts := require_true (count_statuses
    (plannedLines prepared policy lineId))
    (Raised.valueError "Portfolio line states do not reconcile")
  unfold PortfolioProposalAuthority.postInit proposalOf
  rw [hcounts, ratio_eq hgross, ratio_eq hgross, ratio_eq hcash,
    ratio_eq hgross]
  rfl

/-- A proposal is built from the lines, once the hash of the request and
the time of the record are accepted. -/
theorem build_eq :
    buildPortfolioProposal portfolioProposalId prepared policy requestIdentity
      requestSha256 commandReceiptId recordedAt lineId
      = (do
        let requestSha256 ← sha requestSha256 "Portfolio request hash"
        Lib.require (prepared.opportunitySetRecordedAt ≤ recordedAt)
          (.valueError "PortfolioProposal cannot precede OpportunitySet")
        return proposalOf portfolioProposalId prepared policy requestIdentity
          requestSha256 commandReceiptId recordedAt lineId) := by
  unfold buildPortfolioProposal
  congr 1
  funext requestSha256
  rw [← proposalOf_postInit hids]
  have hlines := plannedLines_constructed policy lineId hids
  unfold plannedLines at hlines
  dsimp only at hlines ⊢
  rw [hlines]
  rfl

/-- What is built allocates as the policy says. -/
theorem proposalOf_law : AllocationLaw policy prepared
    (proposalOf portfolioProposalId prepared policy requestIdentity
      requestSha256 commandReceiptId recordedAt lineId) := by
  obtain ⟨hsource, hweight⟩ := plannedLines_included policy lineId hids
  set p := proposalOf portfolioProposalId prepared policy requestIdentity
    requestSha256 commandReceiptId recordedAt lineId
  have hlength : p.included.length = (selected prepared policy).length := by
    rw [← hsource, length_map]
    rfl
  have hcapSum := plannedLines_sum policy lineId hids
  have hcapLe := (plannedLines_sum_bounds policy lineId hids).2
  have hroster : (plannedLines prepared policy lineId).map
      (fun line => (line.source, line.ordinal))
        = prepared.opportunities.zipIdx 1 := planLines_source _ _
  constructor
  case roster => exact hroster
  case proposed_iff => exact proposalStatus_proposed
  case gross_sum => rfl
  case gross =>
    intro _
    rw [hlength]
    exact hcapSum
  case cash => rfl
  case cash_minimum =>
    intro _
    have hcap := policy.grossCap_bounds.2.2
    show policy.minimumCashWeight ≤ 1 - _
    linarith only [hcap, hcapLe]
  case weights => exact fun line hline => plannedLines_weights hids hline
  case antitone =>
    -- the weights fall along the lines, and the ordinals rise
    have hfall : (p.included.map (·.proposedWeight)).Pairwise (· ≥ ·) := by
      rw [show p.included.map (·.proposedWeight) = _ from hweight,
        pairwise_map]
      apply (handOut_pairwise policy.part_nonneg policy.remaining_nonneg).imp
      exact fun hle => add_le_add_right hle _
    have hrise : (p.lines.map (·.ordinal)).Pairwise (· < ·) := by
      have hordinals := congrArg (List.map Prod.snd) hroster
      rw [map_map, zipIdx_map_snd] at hordinals
      exact hordinals ▸ pairwise_lt_range'
    have hfall := pairwise_map.mp hfall
    have hrise := (pairwise_map.mp hrise).filter (·.status = .included)
    apply List.Pairwise.forall_of_forall_of_flip
    · exact fun _ _ _ => le_rfl
    · apply hfall.imp
      intro a b hle _
      exact hle
    · apply hrise.imp
      intro a b hlt hle
      exact absurd hle (not_le.mpr hlt)
  case near =>
    intro a ha b hb
    obtain ⟨x, hx, hxa⟩ := included_weight hids ha
    obtain ⟨y, hy, hyb⟩ := included_weight hids hb
    obtain ⟨hx0, hx1⟩ := mem_parts hx
    obtain ⟨hy0, hy1⟩ := mem_parts hy
    have hx2 := hx1.trans (min_le_left _ _)
    have hy2 := hy1.trans (min_le_left _ _)
    show _ ≤ policy.quantum
    rw [hxa, hyb, add_sub_add_left_eq_sub, abs_le]
    constructor
    · linarith only [hx0, hy2]
    · linarith only [hx2, hy0]
  case count =>
    rw [hlength]
    exact length_selected_le
  case first =>
    rw [hlength, ← selected_eq_take]
    exact hsource
  case excluded => exact fun line hline => planLines_weight_zero hline
  case otherwise =>
    intro hnot line hline
    have hnil := selected_eq_nil hnot
    apply planLines_weight_zero hline
    intro hstatus
    have hin : line ∈ p.included := mem_filter.mpr ⟨hline, by simpa using hstatus⟩
    rw [hnil] at hlength
    rw [eq_nil_of_length_eq_zero hlength] at hin
    cases hin

end Build

/-- No proposal fails a check of its own weights, and each one that is
built allocates as its policy says. -/
theorem portfolio_allocation_law (portfolioProposalId : Nat) (prepared : PreparedPortfolioInputs)
    (policy : PortfolioPolicyPlan) (requestIdentity requestSha256 : String) (commandReceiptId : Nat)
    (recordedAt : Int) (lineIdFactory : PreparedPortfolioOpportunity → Nat)
    (hids : (prepared.opportunities.map (·.opportunityId)).Nodup) :
    (∀ e, buildPortfolioProposal portfolioProposalId prepared policy
        requestIdentity requestSha256 commandReceiptId recordedAt lineIdFactory
          = .error e →
      e = .valueError "Portfolio request hash must be a lowercase SHA-256"
        ∨ e = .valueError "PortfolioProposal cannot precede OpportunitySet")
      ∧ ∀ p, buildPortfolioProposal portfolioProposalId prepared policy
        requestIdentity requestSha256 commandReceiptId recordedAt lineIdFactory
          = .ok p → AllocationLaw policy prepared p := by
  rw [build_eq hids]
  constructor
  · intro e h
    rcases bind_error.mp h with h | ⟨_, -, h⟩
    · left
      rcases bind_error.mp h with h | ⟨_, -, h⟩
      · exact (require_error.mp h).2.symm
      · cases h
    · right
      rcases bind_error.mp h with h | ⟨_, -, h⟩
      · exact (require_error.mp h).2.symm
      · cases h
  · intro p h
    simp only [bind_ok, require_ok, pure_ok] at h
    obtain ⟨_, -, -, -, rfl⟩ := h
    exact proposalOf_law hids

theorem first_supersedes : (1 : Int) = 1 ↔ (none : Option Nat) = none := by
  decide

def samplePolicy : PortfolioPolicyPlan where
  portfolioPolicyId := 1
  policyCode := "equal.weight"
  version := 1
  supersedesPolicyId := none
  allocationMethod := .equalWeightActionable
  minimumEstimableCount := 2
  maximumLineCount := 3
  maximumSingleWeight := 1 / 4
  maximumGrossWeight := 9 / 10
  maximumNetWeight := 8 / 10
  minimumCashWeight := 3 / 10
  maximumTurnover := 1
  decimalPlaces := 3
  identity := by decide
  supersession := first_supersedes
  counts := by decide
  places := by decide
  ratios := by decide +kernel
  net_le_gross := by decide +kernel

def samplePrepared : PreparedPortfolioInputs where
  decisionRunId := 1
  strategyVersionId := 1
  opportunitySetId := 1
  opportunitySetRecordedAt := 0
  opportunities :=
    [⟨11, 1, 1, 1, 1, .actionable⟩, ⟨12, 2, 2, 2, 1, .wait⟩,
     ⟨13, 3, 3, 3, 1, .actionable⟩, ⟨14, 4, 4, 4, 1, .actionable⟩,
     ⟨15, 5, 5, 5, 1, .actionable⟩]
  contiguous := by decide

/-- The sample is proposed. -/
theorem portfolio_allocation_law_sample : ∃ p,
    buildPortfolioProposal 1 samplePrepared samplePolicy "request-1"
        (String.ofList (List.replicate 64 'a')) 1 1 (·.opportunityId) = .ok p
      ∧ p.status = .proposed ∧ p.grossWeight = 7 / 10
      ∧ AllocationLaw samplePolicy samplePrepared p := by
  have hrun : ((buildPortfolioProposal 1 samplePrepared samplePolicy "request-1"
      (String.ofList (List.replicate 64 'a')) 1 1 (·.opportunityId)).bind
        fun p => Lib.require (p.status = .proposed ∧ p.grossWeight = 7 / 10)
          (.valueError "not proposed")).isOk := by
    decide +kernel
  obtain ⟨_, hok⟩ := exists_of_isOk hrun
  obtain ⟨p, hp, hok⟩ := bind_ok.mp hok
  obtain ⟨hstatus, hgross⟩ := require_ok.mp hok
  exact ⟨p, hp, hstatus, hgross,
    (portfolio_allocation_law _ _ _ _ _ _ _ _ (by decide)).2 p hp⟩

end MarketRegimeAlpha.DecisionSupport
