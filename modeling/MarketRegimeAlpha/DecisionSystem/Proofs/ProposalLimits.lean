/-
The limits that a research proposal keeps to.

# What a weight is kept to

Weights are kept to eight places, rounded to the nearest, and the limits may have ten.
A proposed weight therefore keeps to a limit up to half a unit of the eighth place, and
exactly where the limit has eight places itself (`Within`).
-/
import MarketRegimeAlpha.DecisionSystem.Portfolio
import MarketRegimeAlpha.DecisionSystem.Proofs.Reconciled

namespace MarketRegimeAlpha.DecisionSystem

open Lib List

-- ==== the limits

namespace BuildProposal

/-- The symbol is of a candidate of the theme that is liquid enough. -/
def Counted (call : BuildProposal) (key symbol : String) : Prop :=
  ∃ candidate ∈ call.summary.candidates, candidate.symbol = symbol
    ∧ candidate.themeKey = key
    ∧ call.configuration.minimumLiquidity ≤ candidate.liquidity

instance (call : BuildProposal) (key symbol : String) :
    Decidable (call.Counted key symbol) :=
  inferInstanceAs (Decidable (∃ candidate ∈ call.summary.candidates, _))

def themeWeight (call : BuildProposal) (key : String) (lines : List PortfolioProposalLine) : ℚ :=
  ((lines.filter fun line => call.Counted key line.symbol).map
    (·.proposedResearchWeight)).sum

/-- What the raised weights cost. -/
def spent (call : BuildProposal) (lines : List PortfolioProposalLine) : ℚ :=
  (lines.map fun line => max 0 line.weightDelta * call.observation.totalEquity).sum

/-- Half a unit of weight, of the total equity. -/
def slack (call : BuildProposal) : ℚ := weightQuantum / 2 * call.observation.totalEquity

structure LineLimits (call : BuildProposal) (line : PortfolioProposalLine)
    (candidate : SummaryCandidate) : Prop where
  mem : candidate ∈ call.summary.candidates
  symbol : candidate.symbol = line.symbol
  single : line.currentWeight < line.proposedResearchWeight →
    Within weightQuantum call.configuration.maximumSingleSymbolWeight
      line.proposedResearchWeight
  ceiling : line.currentWeight < line.proposedResearchWeight →
    Within weightQuantum candidate.researchExposureCeiling line.proposedResearchWeight
  illiquid : candidate.liquidity < call.configuration.minimumLiquidity →
    line.proposedResearchWeight = line.currentWeight

/-- The lines keep to the limits of the configuration and to the cash. -/
structure Limits (call : BuildProposal) (lines : List PortfolioProposalLine) : Prop where
  each : ∀ line ∈ lines, ∃ candidate, call.LineLimits line candidate
  themes : ∀ key, Within weightQuantum call.configuration.maximumThemeWeight
    (call.themeWeight key lines)
  cash : call.spent lines ≤ call.observation.availableCash + call.slack

end BuildProposal

-- ==== the weights

theorem weightQuantum_pos : 0 < weightQuantum := by
  unfold weightQuantum
  norm_num

theorem onGrid_weight (value : ℚ) : OnGrid weightQuantum (weight value) :=
  onGrid_quantize halfEven weightQuantum value

theorem weight_mono : Monotone weight := quantize_mono weightQuantum_pos

/-- What is left of the cash, when it is not enough for a target, is not enough for
the weight either. -/
theorem capped_le {equity remaining current target : ℚ} (hequity : 0 ≤ equity)
    (hremaining : 0 ≤ remaining) (hshort : remaining < max 0 ((target - current) * equity)) :
    0 < equity ∧ current + remaining / equity ≤ target := by
  have hlt : remaining < (target - current) * equity := by
    rcases lt_max_iff.mp hshort with hneg | hlt
    · exact absurd hneg (not_lt.mpr hremaining)
    · exact hlt
  have hpos : 0 < equity := by
    refine hequity.lt_of_ne fun hzero => ?_
    rw [← hzero, mul_zero] at hlt
    exact absurd hlt (not_lt.mpr hremaining)
  have hdiv : remaining / equity < target - current := (div_lt_iff₀ hpos).mpr hlt
  exact ⟨hpos, by linarith only [hdiv]⟩

namespace BuildProposal

variable {call : BuildProposal}

theorem slack_nonneg : 0 ≤ call.slack :=
  mul_nonneg (by have := weightQuantum_pos; linarith) call.observation.equity.nonneg

theorem spent_concat (lines : List PortfolioProposalLine) (line : PortfolioProposalLine) :
    call.spent (lines ++ [line])
      = call.spent lines + max 0 line.weightDelta * call.observation.totalEquity := by
  unfold spent
  simp

theorem themeWeight_concat (key : String) (lines : List PortfolioProposalLine)
    (line : PortfolioProposalLine) :
    call.themeWeight key (lines ++ [line]) = call.themeWeight key lines
        + if call.Counted key line.symbol then line.proposedResearchWeight else 0 := by
  unfold themeWeight
  by_cases hcounted : call.Counted key line.symbol
  · simp [hcounted]
  · simp [hcounted]

theorem counted_iff {candidate : SummaryCandidate}
    (hmem : candidate ∈ call.summary.candidates) (key : String) :
    call.Counted key candidate.symbol ↔ candidate.themeKey = key
        ∧ call.configuration.minimumLiquidity ≤ candidate.liquidity := by
  constructor
  · rintro ⟨other, hother, hsymbol, hcounted⟩
    have hsame := inj_on_of_nodup_map call.summary.distinct hother hmem hsymbol
    rwa [hsame] at hcounted
  · exact fun hcounted => ⟨candidate, hmem, rfl, hcounted⟩

-- ==== one candidate

section Candidate

variable {running : Running} {candidate : SummaryCandidate}

abbrev themeUsed (running : Running) (candidate : SummaryCandidate) : ℚ :=
  (running.themeWeights.lookup candidate.themeKey).getD 0

theorem targetWeight_le : call.targetWeight running candidate
      ≤ weight (min candidate.researchExposureCeiling
        call.configuration.maximumSingleSymbolWeight)
    ∧ call.targetWeight running candidate
      ≤ weight (max 0 (call.configuration.maximumThemeWeight
        - themeUsed running candidate)) := by
  constructor
  · exact (onGrid_weight _).quantize_le weightQuantum_pos (min_le_left _ _)
  · exact weight_mono (min_le_right _ _)

/-- What a liquid candidate is given: no more than its target, and as much as it
leaves less of the cash. -/
structure Sized (call : BuildProposal) (running : Running)
    (candidate : SummaryCandidate) (sizing : Sizing) : Prop where
  grid : OnGrid weightQuantum sizing.proposed
  le_target : sizing.proposed ≤ call.targetWeight running candidate
  themes : sizing.themeWeights = setItem running.themeWeights candidate.themeKey
    (themeUsed running candidate + sizing.proposed)
  cash : ∀ {budget total : ℚ}, Spent budget call.slack total running.remainingCash →
    Spent budget call.slack
      (total + max 0 (sizing.proposed - call.currentWeight candidate.symbol)
        * call.observation.totalEquity)
      sizing.remainingCash

theorem sizeLiquid_sized (hcash : 0 ≤ running.remainingCash) :
    call.Sized running candidate (call.sizeLiquid running candidate) := by
  have hequity := call.observation.equity.nonneg
  have hgrid : OnGrid weightQuantum (call.targetWeight running candidate) := onGrid_weight _
  unfold sizeLiquid
  by_cases hshort : running.remainingCash < max 0 ((call.targetWeight running candidate
      - call.currentWeight candidate.symbol) * call.observation.totalEquity)
  · -- the cash is not enough: all of it is taken, rounded to a weight
    obtain ⟨hpos, hle⟩ := capped_le hequity hcash hshort
    have hof : call.ofEquity running.remainingCash
        = running.remainingCash / call.observation.totalEquity := if_neg hpos.ne'
    rw [if_pos hshort]
    refine ⟨onGrid_weight _, ?_, rfl, fun hspent => ?_⟩
    · rw [hof]
      exact hgrid.quantize_le weightQuantum_pos hle
    · dsimp only
      rw [sub_self, hof]
      refine hspent.rest ?_ fun hzero => ?_
      · have herror := (abs_le.mp (abs_quantize_sub_le weightQuantum_pos
          (call.currentWeight candidate.symbol
            + running.remainingCash / call.observation.totalEquity))).2
        have hraise : max 0 (weight (call.currentWeight candidate.symbol
              + running.remainingCash / call.observation.totalEquity)
              - call.currentWeight candidate.symbol)
            ≤ running.remainingCash / call.observation.totalEquity
              + weightQuantum / 2 := by
          refine max_le ?_ ?_
          · have hdiv := div_nonneg hcash hequity
            have hquantum := weightQuantum_pos
            linarith only [hdiv, hquantum]
          · unfold weight
            linarith only [herror]
        calc _ ≤ (running.remainingCash / call.observation.totalEquity
                + weightQuantum / 2) * call.observation.totalEquity :=
              mul_le_mul_of_nonneg_right hraise hequity
          _ = running.remainingCash + call.slack := by
              rw [add_mul, div_mul_cancel₀ _ hpos.ne', slack]
      · have hcurrent : weight (call.currentWeight candidate.symbol)
            = call.currentWeight candidate.symbol :=
          (onGrid_weight _).quantize_eq weightQuantum_pos.ne'
        rw [hzero, zero_div, add_zero, hcurrent, sub_self, max_self, zero_mul]
  · -- the cash covers the target
    rw [if_neg hshort]
    refine ⟨hgrid, le_refl _, rfl, fun hspent => ?_⟩
    have hcost : max 0 (call.targetWeight running candidate
          - call.currentWeight candidate.symbol) * call.observation.totalEquity
        = max 0 ((call.targetWeight running candidate
          - call.currentWeight candidate.symbol) * call.observation.totalEquity) := by
      rw [max_mul_of_nonneg _ _ hequity, zero_mul]
    rw [hcost]
    exact hspent.pay (le_max_left _ _) (not_lt.mp hshort)

end Candidate

-- ==== the loop

/-- What the lines so far keep to, and what the loop variables say of them. -/
structure Sound (call : BuildProposal) (running : Running) : Prop where
  each : ∀ line ∈ running.lines, ∃ candidate, call.LineLimits line candidate
  counters : ∀ key, (running.themeWeights.lookup key).getD 0
    = call.themeWeight key running.lines
  grid : ∀ key, OnGrid weightQuantum (call.themeWeight key running.lines)
  themes : ∀ key, Within weightQuantum call.configuration.maximumThemeWeight
    (call.themeWeight key running.lines)
  cash : Spent call.observation.availableCash call.slack (call.spent running.lines)
    running.remainingCash

section Step

variable {running : Running} {candidate : SummaryCandidate} {line : PortfolioProposalLine}

theorem forall_concat {P : PortfolioProposalLine → Prop} {lines : List PortfolioProposalLine}
    (h : ∀ other ∈ lines, P other) (hline : P line) :
    ∀ other ∈ lines ++ [line], P other := by
  intro other hother
  rcases mem_append.mp hother with hother | hother
  · exact h other hother
  · rw [mem_singleton.mp hother]
    exact hline

/-- A candidate that is not liquid enough keeps its weight, and leaves everything as it
was. -/
theorem Sound.skip (h : call.Sound running) (hmem : candidate ∈ call.summary.candidates)
    (hilliquid : candidate.liquidity < call.configuration.minimumLiquidity)
    (hsymbol : line.symbol = candidate.symbol)
    (hkept : line.proposedResearchWeight = line.currentWeight) (hdelta : line.weightDelta = 0) :
    call.Sound { running with lines := running.lines ++ [line] } := by
  have htheme : ∀ key, call.themeWeight key (running.lines ++ [line])
      = call.themeWeight key running.lines := by
    intro key
    have hnot : ¬ call.Counted key line.symbol := by
      rw [hsymbol, counted_iff hmem, not_and, not_le]
      exact fun _ => hilliquid
    rw [themeWeight_concat, if_neg hnot, add_zero]
  refine ⟨forall_concat h.each ⟨candidate, ?_⟩, fun key => ?_, fun key => ?_,
    fun key => ?_, ?_⟩
  · exact {
      mem := hmem
      symbol := hsymbol.symm
      single := fun hraise => absurd hkept hraise.ne'
      ceiling := fun hraise => absurd hkept hraise.ne'
      illiquid := fun _ => hkept }
  · rw [htheme]
    exact h.counters key
  · rw [htheme]
    exact h.grid key
  · rw [htheme]
    exact h.themes key
  · rw [spent_concat, hdelta, max_self, zero_mul, add_zero]
    exact h.cash

/-- A candidate that is liquid enough is given what the limits and the cash leave. -/
theorem Sound.give (h : call.Sound running) (hmem : candidate ∈ call.summary.candidates)
    (hliquid : call.configuration.minimumLiquidity ≤ candidate.liquidity) {sizing : Sizing}
    (hsized : call.Sized running candidate sizing) (hsymbol : line.symbol = candidate.symbol)
    (hproposed : line.proposedResearchWeight = sizing.proposed)
    (hdelta : line.weightDelta = sizing.proposed - call.currentWeight candidate.symbol) :
    call.Sound
      { remainingCash := sizing.remainingCash
        themeWeights := sizing.themeWeights
        lines := running.lines ++ [line] } := by
  obtain ⟨hown, htheme⟩ := @targetWeight_le call running candidate
  have hown := hsized.le_target.trans hown
  have htheme := hsized.le_target.trans htheme
  have hused : themeUsed running candidate
      = call.themeWeight candidate.themeKey running.lines :=
    h.counters candidate.themeKey
  have hcounted : ∀ key, call.Counted key line.symbol ↔ candidate.themeKey = key := by
    intro key
    rw [hsymbol, counted_iff hmem]
    exact and_iff_left hliquid
  have hsum : ∀ key, call.themeWeight key (running.lines ++ [line])
      = call.themeWeight key running.lines
        + if candidate.themeKey = key then sizing.proposed else 0 := by
    intro key
    rw [themeWeight_concat, hproposed]
    simp only [hcounted]
  refine ⟨forall_concat h.each ⟨candidate, ?_⟩, fun key => ?_, fun key => ?_,
    fun key => ?_, ?_⟩
  · exact {
      mem := hmem
      symbol := hsymbol.symm
      single := fun _ => by
        rw [hproposed]
        exact within_of_le_quantize weightQuantum_pos
          (hown.trans (weight_mono (min_le_right _ _)))
      ceiling := fun _ => by
        rw [hproposed]
        exact within_of_le_quantize weightQuantum_pos
          (hown.trans (weight_mono (min_le_left _ _)))
      illiquid := fun hlow => absurd hlow (not_lt.mpr hliquid) }
  · dsimp only
    rw [hsized.themes, lookup_setItem, hsum]
    by_cases hkey : key = candidate.themeKey
    · subst hkey
      rw [if_pos rfl, if_pos rfl, Option.getD_some, hused]
    · rw [if_neg hkey, if_neg (Ne.symm hkey), add_zero, h.counters]
  · rw [hsum]
    split
    · exact (h.grid key).add hsized.grid
    · exact (h.grid key).add (onGrid_zero _)
  · rw [hsum]
    split
    next hkey =>
      subst hkey
      rw [hused] at htheme
      exact (h.themes _).add_rounded weightQuantum_pos (h.grid _) htheme
    next =>
      rw [add_zero]
      exact h.themes key
  · rw [spent_concat, hdelta]
    exact hsized.cash h.cash

/-- What one pass preserves. -/
theorem Sound.step {nfc : String → String} {running' : Running} (h : call.Sound running)
    (hgate : call.gate.1 = .proposed) (hmem : candidate ∈ call.summary.candidates)
    (hstep : call.step nfc running candidate = .ok running') :
    call.Sound running' := by
  simp only [BuildProposal.step, PortfolioProposalLine.make, bind_ok, pure_ok] at hstep
  obtain ⟨line, ⟨_, -, rfl⟩, rfl⟩ := hstep
  rcases lt_or_ge candidate.liquidity call.configuration.minimumLiquidity
    with hilliquid | hliquid
  · have hsize : call.size running candidate
        = { proposed := call.currentWeight candidate.symbol
            liquidityConstraint := "LIQUIDITY_INSUFFICIENT"
            positionConstraint := "SATISFIED"
            reasons := ["LIQUIDITY_BELOW_MINIMUM"]
            remainingCash := running.remainingCash
            themeWeights := running.themeWeights } := by
      unfold size
      rw [if_pos hgate, if_pos hilliquid]
    have hline : (call.lineOf running candidate).proposedResearchWeight
        = (call.lineOf running candidate).currentWeight := by
      show (call.size running candidate).proposed = _
      rw [hsize]
      rfl
    rw [hsize]
    exact h.skip hmem hilliquid rfl hline (sub_eq_zero.mpr hline)
  · have hsize : call.size running candidate = call.sizeLiquid running candidate := by
      unfold size
      rw [if_pos hgate, if_neg (not_lt.mpr hliquid)]
    have hsized : call.Sized running candidate (call.size running candidate) := by
      rw [hsize]
      exact sizeLiquid_sized h.cash.nonneg
    exact h.give hmem hliquid hsized rfl rfl rfl

end Step

theorem sound_start : call.Sound
    { remainingCash := call.observation.availableCash, themeWeights := [],
      lines := [] } where
  each := nofun
  counters := fun _ => rfl
  grid := fun _ => onGrid_zero _
  themes := fun _ => within_of_le_quantize weightQuantum_pos
    (quantize_nonneg weightQuantum_pos call.configuration.theme.nonneg)
  cash := Spent.start call.observation.available.nonneg

variable {running : Running}

theorem sound_run {nfc : String → String}
    (hgate : call.gate.1 = .proposed) (h : call.run nfc = .ok running) :
    call.Sound running := by
  have hinv := foldlM_inv
    (I := fun rest now => (∀ candidate ∈ rest, candidate ∈ call.summary.candidates)
      ∧ call.Sound now)
    (fun candidate rest now now' hnow hstep =>
      ⟨fun other hother => hnow.1 other (mem_cons_of_mem candidate hother),
        hnow.2.step hgate (hnow.1 candidate mem_cons_self) hstep⟩)
    ⟨fun _ hcandidate => hcandidate, sound_start⟩ h
  exact hinv.2

theorem Sound.limits (h : call.Sound running)
    {lines : List PortfolioProposalLine} (hperm : lines.Perm running.lines) :
    call.Limits lines where
  each := fun line hline => h.each line (hperm.mem_iff.mp hline)
  themes := fun key => by
    have hsum : call.themeWeight key lines = call.themeWeight key running.lines :=
      ((hperm.filter _).map _).sum_eq
    rw [hsum]
    exact h.themes key
  cash := by
    have hsum : call.spent lines = call.spent running.lines := (hperm.map _).sum_eq
    rw [hsum]
    exact h.cash.le slack_nonneg

end BuildProposal

-- ==== the proposal

variable {call : BuildProposal}

theorem BuildProposal.gate_of_verdict
    {lines : List PortfolioProposalLine} (h : (call.verdict lines).1 = .proposed) :
    call.gate.1 = .proposed := by
  unfold verdict at h
  split at h
  · cases h
  · exact h

section Sample

theorem isRatio_ten {n : Nat} (h : n ≤ 10 ^ 10) : IsRatio (n / 10 ^ 10) := by
  refine ⟨⟨?_, by positivity⟩, ?_⟩
  · unfold TenPlaces
    rw [div_mul_cancel₀ _ (by positivity)]
    exact Rat.den_natCast n
  · rw [div_le_one (by positivity)]
    exact_mod_cast h

def sampleCandidate (symbol theme : String) (currentQuantity : Nat)
    (ceiling liquidity : Fin (10 ^ 10 + 1)) : SummaryCandidate where
  symbol := symbol
  theme := some theme
  invalidationConditions := []
  currentQuantity := currentQuantity
  researchExposureCeiling := ceiling.val / 10 ^ 10
  modelQualification := .qualified
  liquidity := liquidity.val / 10 ^ 10
  orderability := .orderable
  ceiling := isRatio_ten (Nat.lt_succ_iff.mp ceiling.isLt)
  liquid := isRatio_ten (Nat.lt_succ_iff.mp liquidity.isLt)

def heldRow : ManualPositionObservation where
  symbol := "B"
  totalQuantity := 1
  availableQuantity := 1
  frozenQuantity := 0
  averageCost := some 1
  observedMarketValue := 2
  partition := rfl
  costPresence := by simp
  costPositive := by
    intro cost hcost
    cases hcost
    exact ⟨by unfold TenPlaces; norm_num, one_pos⟩
  value := ⟨by unfold TenPlaces; norm_num, by norm_num⟩

def heldPosition : FillDerivedPositionReference where
  snapshotId := "snapshot"
  accountId := "account"
  symbol := "B"
  asOfTime := 0
  totalQuantity := 1
  availableQuantity := some 1
  frozenQuantity := some 0
  averageCost := some 1
  complete := true
  partition := by simp
  costPositive := heldRow.costPositive

def sampleProposal : BuildProposal where
  summary :=
    { summaryId := "summary"
      accountId := "account"
      tradingDate := 0
      asOfTime := 0
      manualObservationId := "observation"
      reconciliationId := "reconciliation"
      candidates :=
        [sampleCandidate "A" "held" 0 100000099 (Fin.last _),
        sampleCandidate "B" "held" 1 (Fin.last _) 0,
        sampleCandidate "C" "theme" 0 (Fin.last _) (Fin.last _),
        sampleCandidate "D" "other" 0 (Fin.last _) (Fin.last _)]
      createdAt := 0
      distinct := by decide }
  observation :=
    { observationId := "observation"
      accountId := "account"
      tradingDate := 0
      asOfTime := 0
      totalEquity := 100
      availableCash := 30000029 / 10 ^ 7
      frozenCash := 0
      positions := [heldRow]
      equity := ⟨by unfold TenPlaces; norm_num, by norm_num⟩
      available := ⟨by unfold TenPlaces; norm_num, by norm_num⟩
      frozen := isAmount_zero
      covered := by norm_num
      ordered := by simp }
  reconciliation :=
    { accountId := "account"
      tradingDate := 0
      asOfTime := 0
      manualObservationId := "observation"
      positionSnapshotIds := ["snapshot"]
      fillLedgerHead := sampleDigest
      fillLedgerComplete := true
      toleranceConfigurationId := "tolerance"
      toleranceConfigurationHash := sampleDigest
      status := .reconciled
      differences := []
      reasonCodes := ["ACCOUNT_AND_FILL_POSITION_RECONCILED"]
      revision := 1
      previousReconciliationId := none
      idempotencyKey := "key"
      createdAt := 0
      reconciliationId := "reconciliation"
      contentHash := sampleDigest }
  positions := [heldPosition]
  configuration :=
    { configurationId := "configuration"
      configurationHash := sampleDigest
      maximumSingleSymbolWeight := (10000000000 : Nat) / 10 ^ 10
      maximumThemeWeight := (200000099 : Nat) / 10 ^ 10
      minimumLiquidity := (10000000000 : Nat) / 10 ^ 10
      single := isRatio_ten (by norm_num)
      theme := isRatio_ten (by norm_num)
      liquidity := isRatio_ten (by norm_num) }
  idempotencyKey := "key"

def BuildProposal.wholeThemeWeight (call : BuildProposal) (key : String)
    (lines : List PortfolioProposalLine) : ℚ :=
  ((lines.filter fun line => ∃ candidate ∈ call.summary.candidates,
    candidate.symbol = line.symbol ∧ candidate.themeKey = key).map
      (·.proposedResearchWeight)).sum

/-- A raised weight is above its ceiling; the weights of a theme are above the maximum,
and those of another are so with a held symbol that is not liquid; the raised weights
cost more than the available cash. -/
def BuildProposal.Overruns (call : BuildProposal) (lines : List PortfolioProposalLine) : Prop :=
  (∃ line ∈ lines, ∃ candidate ∈ call.summary.candidates, candidate.symbol = line.symbol
        ∧ line.currentWeight < line.proposedResearchWeight
        ∧ candidate.researchExposureCeiling < line.proposedResearchWeight)
    ∧ call.configuration.maximumThemeWeight < call.themeWeight "theme" lines
    ∧ call.themeWeight "held" lines ≤ call.configuration.maximumThemeWeight
    ∧ call.configuration.maximumThemeWeight < call.wholeThemeWeight "held" lines
    ∧ call.observation.availableCash < call.spent lines

instance (call : BuildProposal) (lines : List PortfolioProposalLine) :
    Decidable (call.Overruns lines) :=
  inferInstanceAs (Decidable (_ ∧ _))

abbrev sampleResult : Except Raised ResearchPortfolioProposal :=
  buildResearchPortfolioProposal id (fun _ => .ok sampleDigest) sampleProposal

theorem sampleResult_overruns : ∃ proposal, sampleResult = .ok proposal
    ∧ proposal.status = .proposed ∧ sampleProposal.Overruns proposal.lines := by
  have hrun : sampleResult.toOption.any fun proposal =>
      proposal.status = .proposed ∧ sampleProposal.Overruns proposal.lines := by
    decide +kernel
  cases hresult : sampleResult with
  | error e =>
    rw [hresult] at hrun
    cases hrun
  | ok proposal =>
    rw [hresult] at hrun
    exact ⟨proposal, rfl, of_decide_eq_true hrun⟩

end Sample

end MarketRegimeAlpha.DecisionSystem
