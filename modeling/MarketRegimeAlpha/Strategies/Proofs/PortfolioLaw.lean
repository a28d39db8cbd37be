/-
The law of the cross-strategy portfolio, on the lines of the decision.

The decision is drawn from what each proposal is granted, one line for each,
in the order of their identifiers. A proposal that two runs share would be
drawn twice, and the decision refuses it (`shared_proposal_refused`).
-/
import MarketRegimeAlpha.Strategies.Proofs.Allocation

namespace MarketRegimeAlpha.Strategies

open Lib List

-- ==== what is stated

structure LineOf (proposal : StrategyProposal) (line : CrossStrategyPortfolioLine) : Prop where
  version : line.strategyVersionReference = proposal.strategyVersionReference
  reference : line.proposalReference =
    ⟨"STRATEGY_PROPOSAL", proposal.proposalId, proposal.proposalHash⟩
  symbol : line.symbol = proposal.symbol
  action : line.action = proposal.action
  requested : line.requestedWeight = proposal.desiredWeight

def linesOn (symbol : String) (lines : List CrossStrategyPortfolioLine) :
    List CrossStrategyPortfolioLine :=
  lines.filter (·.symbol = symbol)

structure PortfolioLaw (policy : CrossStrategyPortfolioPolicy) (proposals : List StrategyProposal)
    (decision : CrossStrategyPortfolioDecision) : Prop where
  /-- Each proposal has its line. -/
  drawn : ∃ lines, lines.Perm decision.lines ∧ List.Forall₂ LineOf proposals lines
  gross : grossOf decision.lines ≤ policy.maximumGrossWeight
  symbol : ∀ symbol, grossOf (linesOn symbol decision.lines) ≤ policy.maximumSymbolWeight
  reductions : ∀ line ∈ decision.lines, line.requestedWeight < 0 →
    line.acceptedWeight = line.requestedWeight
  opposed : ∀ line ∈ decision.lines, ∀ other ∈ decision.lines,
    other.symbol = line.symbol → other.requestedWeight < 0 →
    0 < line.requestedWeight → line.acceptedWeight = 0
  increases : ∀ line ∈ decision.lines, 0 < line.requestedWeight →
    0 ≤ line.acceptedWeight ∧ line.acceptedWeight ≤ line.requestedWeight
  /-- An increase that nothing opposes is cut only by a used-up budget. -/
  cut : ∀ line ∈ decision.lines, 0 < line.requestedWeight →
    (∀ other ∈ decision.lines, other.symbol = line.symbol → ¬ other.requestedWeight < 0) →
    line.acceptedWeight ≠ line.requestedWeight →
    grossOf (linesOn line.symbol decision.lines) = policy.maximumSymbolWeight
      ∨ grossOf decision.lines = policy.maximumGrossWeight
  grossCapped : ∀ line ∈ decision.lines, "GROSS_WEIGHT_CAPPED" ∈ line.reasonCodes →
    grossOf decision.lines = policy.maximumGrossWeight
  symbolCapped : ∀ line ∈ decision.lines, "SYMBOL_WEIGHT_CAPPED" ∈ line.reasonCodes →
    grossOf (linesOn line.symbol decision.lines) = policy.maximumSymbolWeight
  /-- On a symbol the greater utility is never cut while a lesser one
  receives weight. -/
  ranked : ∀ p ∈ proposals, ∀ p' ∈ proposals, ∀ line ∈ decision.lines,
    ∀ line' ∈ decision.lines, LineOf p line → LineOf p' line' →
    p'.symbol = p.symbol → utilityOf p' < utilityOf p →
    line.acceptedWeight ≠ line.requestedWeight → ¬ 0 < line'.acceptedWeight
  status : decision.status = .accepted ↔ decision.lines ≠ []
    ∧ ∀ line ∈ decision.lines, line.acceptedWeight = line.requestedWeight

-- ==== the decision

section Drawing

variable {policy : CrossStrategyPortfolioPolicy}
  {proposals : List StrategyProposal} {lines : List CrossStrategyPortfolioLine}
variable (accepted : Accepted) (proposal : StrategyProposal)

def drawnLine : CrossStrategyPortfolioLine :=
  line proposal (granted accepted proposal) (reasonsFor accepted proposal)

theorem lineOf_drawnLine : LineOf proposal (drawnLine accepted proposal) :=
  ⟨rfl, rfl, rfl, rfl, rfl⟩

theorem drawnLine_ok {gross : ℚ} {accepted : Accepted} {p : StrategyProposal} (hp : p ∈ proposals)
    (hnonzero : p.desiredWeight ≠ 0) (hlaw : SymbolLaw policy proposals p.symbol gross accepted) :
    (do
      let entry ← item accepted p.proposalId
      (line p entry.1 entry.2).postInit)
      = .ok (drawnLine accepted p) := by
  obtain ⟨⟨weight, reasons⟩, hlookup, hreasons⟩ := hlaw.entered p hp rfl
  obtain ⟨hgranted, hgiven⟩ := granted_of_lookup hlookup
  have hitem : item accepted p.proposalId = .ok (weight, reasons) := by
    unfold item
    rw [hlookup]
  have hbounds : |weight| ≤ |p.desiredWeight| ∧ 0 ≤ p.desiredWeight * weight := by
    rcases lt_or_gt_of_ne hnonzero with hneg | hpos
    · have hfull := hlaw.reduced p hp rfl hneg
      rw [hgranted] at hfull
      rw [hfull]
      exact ⟨le_refl _, mul_self_nonneg _⟩
    · obtain ⟨hnonneg, hle⟩ := hlaw.increased p hp rfl hpos
      rw [hgranted] at hnonneg hle
      rw [abs_of_nonneg hnonneg, abs_of_pos hpos]
      exact ⟨hle, mul_nonneg hpos.le hnonneg⟩
  rw [hitem, ok_bind]
  have hline : drawnLine accepted p = line p weight reasons := by
    unfold drawnLine
    rw [hgranted, hgiven]
  rw [hline]
  unfold CrossStrategyPortfolioLine.postInit
  simp only [bind_ok, require_ok, pure_ok]
  exact ⟨(), not_lt.mpr hbounds.1, (), not_lt.mpr hbounds.2, (), hreasons,
    trivial⟩

theorem grossOf_drawn {some : List StrategyProposal}
    (h : lines.Perm (some.map (drawnLine accepted))) :
    grossOf lines = (some.map fun p => max 0 (granted accepted p)).sum := by
  unfold grossOf
  rw [(h.map _).sum_eq, map_map]
  rfl

theorem linesOn_drawn (symbol : String) (h : lines.Perm (proposals.map (drawnLine accepted))) :
    grossOf (linesOn symbol lines) = spentOn proposals accepted symbol := by
  refine grossOf_drawn accepted ?_
  have hfilter := h.filter (·.symbol = symbol)
  rw [filter_map] at hfilter
  exact hfilter

theorem CrossStrategyPortfolioDecision.postInit_ok {decision : CrossStrategyPortfolioDecision}
    (hsorted : (decision.lines.map (·.proposalReference.artifactId)).Pairwise (· < ·))
    (hgross : grossOf decision.lines = decision.grossAcceptedWeight)
    (hlimit : grossOf decision.lines ≤ decision.policy.maximumGrossWeight)
    (hlimitations : decision.limitations ≠ []) :
    decision.postInit = .ok decision := by
  unfold CrossStrategyPortfolioDecision.postInit
  simp only [bind_ok, require_ok, pure_ok]
  exact ⟨(), (sortedDistinct_of_pairwise hsorted).symm, (), hgross, (),
    not_lt.mpr hlimit, (), hlimitations, trivial⟩

end Drawing

/-- Proposals of which no two share an identifier, none of them of weight
zero, make a portfolio that keeps the law. -/
theorem cross_strategy_portfolio_law (cycle : MultiStrategyCycle)
    (policy : CrossStrategyPortfolioPolicy)
    (hnonzero : ∀ p ∈ proposalsOf cycle, p.desiredWeight ≠ 0)
    (hids : ((proposalsOf cycle).map (·.proposalId)).Nodup) :
    ∃ decision, buildCrossStrategyPortfolio cycle policy = .ok decision
      ∧ PortfolioLaw policy (proposalsOf cycle) decision := by
  obtain ⟨hleft, hspent, hlaws⟩ := allocate_law policy hids hnonzero
  unfold buildCrossStrategyPortfolio
  dsimp only
  generalize proposalsOf cycle = proposals at *
  generalize allocate policy proposals = state at *
  obtain ⟨gross, accepted⟩ := state
  dsimp only at hleft hspent hlaws
  have hdrawn : proposals.mapM (fun p => do
      let entry ← item accepted p.proposalId
      (line p entry.1 entry.2).postInit)
      = .ok (proposals.map (drawnLine accepted)) :=
    mapM_ok_map fun p hp => drawnLine_ok hp (hnonzero p hp) (hlaws p hp)
  rw [hdrawn, ok_bind]
  have hperm := sortBy_perm (·.proposalReference.artifactId) (proposals.map (drawnLine accepted))
  have hsorted := sortBy_pairwise (·.proposalReference.artifactId)
    (proposals.map (drawnLine accepted))
  generalize sortBy (·.proposalReference.artifactId)
    (proposals.map (drawnLine accepted)) = lines at *
  have hgross : grossOf lines = policy.maximumGrossWeight - gross := by
    rw [grossOf_drawn accepted hperm]
    linarith
  have hdistinct : (lines.map (·.proposalReference.artifactId)).Nodup := by
    have hmap := hperm.map (·.proposalReference.artifactId)
    rw [map_map] at hmap
    exact hmap.nodup_iff.mpr hids
  have hincreasing : (lines.map (·.proposalReference.artifactId)).Pairwise
      (· < ·) := by
    have hle : (lines.map (·.proposalReference.artifactId)).Pairwise
        (· ≤ ·) := pairwise_map.mpr hsorted
    exact (hle.and hdistinct).imp fun h => lt_of_le_of_ne h.1 h.2
  -- each line is the one of its proposal
  have hline : ∀ line ∈ lines, ∃ p ∈ proposals, line = drawnLine accepted p := by
    intro line hmem
    obtain ⟨p, hp, rfl⟩ := mem_map.mp (hperm.mem_iff.mp hmem)
    exact ⟨p, hp, rfl⟩
  have hback : ∀ p ∈ proposals, drawnLine accepted p ∈ lines := fun p hp =>
    hperm.mem_iff.mpr (mem_map_of_mem hp)
  have hsymbol : ∀ symbol, grossOf (linesOn symbol lines)
      = spentOn proposals accepted symbol := fun symbol =>
    linesOn_drawn accepted symbol hperm
  have hwithin : grossOf lines ≤ policy.maximumGrossWeight := by
    linarith
  refine ⟨_, CrossStrategyPortfolioDecision.postInit_ok hincreasing rfl hwithin
    (cons_ne_nil _ _), ?_⟩
  constructor
  case drawn =>
    refine ⟨_, hperm.symm, ?_⟩
    rw [forall₂_map_right_iff]
    exact forall₂_same.mpr fun p _ => lineOf_drawnLine accepted p
  case gross => exact hwithin
  case symbol =>
    intro symbol
    rw [hsymbol]
    by_cases hsome : ∃ p ∈ proposals, p.symbol = symbol
    · obtain ⟨p, hp, rfl⟩ := hsome
      exact (hlaws p hp).within
    · have hnone : proposals.filter (·.symbol = symbol) = [] := by
        refine filter_eq_nil_iff.mpr fun p hp heq => ?_
        exact hsome ⟨p, hp, of_decide_eq_true heq⟩
      unfold spentOn
      rw [hnone]
      exact policy.symbol_bounds.1.le
  case reductions =>
    intro line hmem hneg
    obtain ⟨p, hp, rfl⟩ := hline line hmem
    exact (hlaws p hp).reduced p hp rfl hneg
  case opposed =>
    intro line hmem other hother hsame hneg hpos
    obtain ⟨p, hp, rfl⟩ := hline line hmem
    obtain ⟨q, hq, rfl⟩ := hline other hother
    exact (hlaws p hp).opposed p hp rfl hpos ⟨q, hq, hsame, hneg⟩
  case increases =>
    intro line hmem hpos
    obtain ⟨p, hp, rfl⟩ := hline line hmem
    exact (hlaws p hp).increased p hp rfl hpos
  case cut =>
    intro line hmem hpos hnone hne
    obtain ⟨p, hp, rfl⟩ := hline line hmem
    rw [hsymbol]
    have hcut := (hlaws p hp).cut p hp rfl hpos (fun q hq hsame => hnone _ (hback q hq) hsame) hne
    rcases hcut with hzero | hfull
    · refine .inr ?_
      rw [hgross, hzero, sub_zero]
    · exact .inl hfull
  case grossCapped =>
    intro line hmem hreason
    obtain ⟨p, hp, rfl⟩ := hline line hmem
    rw [hgross, (hlaws p hp).grossCapped p hp rfl hreason, sub_zero]
  case symbolCapped =>
    intro line hmem hreason
    obtain ⟨p, hp, rfl⟩ := hline line hmem
    rw [hsymbol]
    exact (hlaws p hp).symbolCapped p hp rfl hreason
  case ranked =>
    intro p hp p' hp' line hmem line' hmem' hof hof' hsame hutility hne
    have hown : ∀ {p line}, p ∈ proposals → line ∈ lines → LineOf p line →
        line = drawnLine accepted p := by
      intro p line hp hmem hof
      obtain ⟨q, hq, rfl⟩ := hline line hmem
      have hid : q.proposalId = p.proposalId :=
        congrArg RuntimeArtifactReference.artifactId hof.reference
      rw [inj_on_of_nodup_map hids hq hp hid]
    rw [hown hp hmem hof] at hne
    rw [hown hp' hmem' hof']
    exact (hlaws p hp).ranked p hp p' hp' rfl hsame hutility hne
  case status =>
    by_cases hempty : lines = []
    · simp [hempty]
    · rw [if_neg hempty]
      by_cases hcut : ∃ item ∈ lines, item.acceptedWeight ≠ item.requestedWeight
      · rw [if_pos hcut]
        refine ⟨nofun, fun h => ?_⟩
        obtain ⟨item, hitem, hne⟩ := hcut
        exact absurd (h.2 item hitem) hne
      · rw [if_neg hcut]
        refine ⟨fun _ => ⟨hempty, fun item hitem => ?_⟩, fun _ => rfl⟩
        by_contra hne
        exact hcut ⟨item, hitem, hne⟩

def sampleProposal (proposalId runId versionId symbol : String)
    (weight utility : ℚ) (hweight : -1 ≤ weight ∧ weight ≤ 1) :
    StrategyProposal where
  proposalId := proposalId
  proposalHash := "hash"
  strategyRunId := runId
  strategyVersionReference := ⟨"STRATEGY_VERSION", versionId, "hash"⟩
  symbol := symbol
  action := .rotate
  desiredWeight := weight
  utilityScore := some utility
  weight_bounds := hweight
  passive := by simp
  increasing := by simp
  decreasing := by simp

def samplePolicy : CrossStrategyPortfolioPolicy where
  maximumGrossWeight := 4 / 5
  maximumSymbolWeight := 3 / 5
  gross_bounds := by norm_num
  symbol_bounds := by norm_num

/-- Two runs that ask for more of one symbol than its budget, for more of
another than is left, and against each other in a third. -/
def sampleCycle : MultiStrategyCycle where
  cycleId := "cycle"
  cycleHash := "hash"
  runs := [
    { runId := "r1"
      cycleId := "cycle"
      strategyVersionReference := ⟨"STRATEGY_VERSION", "v1", "hash"⟩
      proposals := [ sampleProposal "p1" "r1" "v1" "A" (1 / 2) 2 (by norm_num),
        sampleProposal "p2" "r1" "v1" "B" (-1 / 4) 0 (by norm_num)]
      sorted := by decide +kernel
      owned := by simp [sampleProposal] },
    { runId := "r2"
      cycleId := "cycle"
      strategyVersionReference := ⟨"STRATEGY_VERSION", "v2", "hash"⟩
      proposals := [ sampleProposal "p3" "r2" "v2" "A" (1 / 2) 1 (by norm_num),
        sampleProposal "p4" "r2" "v2" "B" (1 / 4) 3 (by norm_num),
        sampleProposal "p5" "r2" "v2" "C" (1 / 2) 1 (by norm_num)]
      sorted := by decide +kernel
      owned := by simp [sampleProposal] }]
  sorted := by decide +kernel
  owned := by simp

theorem cross_strategy_portfolio_law_sample : ∃ decision,
    buildCrossStrategyPortfolio sampleCycle samplePolicy = .ok decision
      ∧ PortfolioLaw samplePolicy (proposalsOf sampleCycle) decision :=
  cross_strategy_portfolio_law sampleCycle samplePolicy (by decide +kernel) (by decide +kernel)

/-- Two runs under one run id that hold the same proposal. -/
def sharedCycle : MultiStrategyCycle where
  cycleId := "cycle"
  cycleHash := "hash"
  runs := [
    { runId := "r1"
      cycleId := "cycle"
      strategyVersionReference := ⟨"STRATEGY_VERSION", "v1", "hash"⟩
      proposals := [sampleProposal "p1" "r1" "v1" "A" (1 / 2) 2 (by norm_num)]
      sorted := pairwise_singleton _ _
      owned := by simp [sampleProposal] },
    { runId := "r1"
      cycleId := "cycle"
      strategyVersionReference := ⟨"STRATEGY_VERSION", "v2", "hash"⟩
      proposals := [sampleProposal "p1" "r1" "v1" "A" (1 / 2) 2 (by norm_num)]
      sorted := pairwise_singleton _ _
      owned := by simp [sampleProposal] }]
  sorted := by decide +kernel
  owned := by simp

/-- A proposal that two runs share is drawn twice, which the decision
refuses. -/
theorem shared_proposal_refused : (∀ p ∈ proposalsOf sharedCycle, p.desiredWeight ≠ 0)
    ∧ buildCrossStrategyPortfolio sharedCycle samplePolicy = .error (.valueError
        "Portfolio lines must be proposal-sorted and unique") := by
  constructor
  · decide +kernel
  · decide +kernel

end MarketRegimeAlpha.Strategies
