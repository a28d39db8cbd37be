/-
The grid of the weights of a Portfolio proposal: the multiples of
`10 ^ -decimal_places`.

# What leaves the grid

The base of a line is rounded down to the grid, but the part that a line
is given on top of it is the least of the quantum, the remainder of the
cap and what the single limit leaves, and of these only the quantum has
to be on the grid. Where the single limit binds every line, the part is
what the limit has beyond the base; where the cap binds, the parts are
whole quanta up to the last of them, provided that the limit leaves room
for one. `PortfolioPolicyPlan.Fits` is when that comes out even.
-/
import MarketRegimeAlpha.DecisionSupport.Proofs.Allocation
import Mathlib.Algebra.Group.Subgroup.ZPowers.Basic
import Mathlib.Algebra.Group.Subgroup.Finite

namespace MarketRegimeAlpha.DecisionSupport

open Lib List

variable {policy : PortfolioPolicyPlan} {prepared : PreparedPortfolioInputs}
  {lineId : PreparedPortfolioOpportunity → Nat} {count : Nat} {x : ℚ}

-- ==== the grid

/-- The multiples of the quantum. -/
def PortfolioPolicyPlan.grid (policy : PortfolioPolicyPlan) : AddSubgroup ℚ :=
  AddSubgroup.zmultiples policy.quantum

/-- The weights of a proposal are on the grid, and come to the largest
number on it that its caps allow. -/
structure WeightGrid (policy : PortfolioPolicyPlan) (p : PortfolioProposalAuthority) : Prop where
  weights : ∀ line ∈ p.lines, line.proposedWeight ∈ policy.grid
  greatest : IsGreatest {x | x ∈ policy.grid ∧ x ≤ min policy.grossCap
      (p.included.length * policy.maximumSingleWeight)}
    (p.lines.map (·.proposedWeight)).sum

/-- The caps leave `count` lines weights on the grid: there are none, the
single limit binds them and is on the grid, or the cap does, it is on the
grid, and either each share of it is or the limit has room for a quantum
more. -/
def PortfolioPolicyPlan.Fits (policy : PortfolioPolicyPlan) (count : Nat) :
    Prop :=
  count = 0 ∨ count * policy.maximumSingleWeight ≤ policy.grossCap
      ∧ policy.maximumSingleWeight ∈ policy.grid
    ∨ policy.grossCap < count * policy.maximumSingleWeight ∧ policy.grossCap ∈ policy.grid
      ∧ (policy.grossCap / count ∈ policy.grid
        ∨ quantize truncate policy.quantum (policy.grossCap / count)
          + policy.quantum ≤ policy.maximumSingleWeight)

theorem PortfolioPolicyPlan.quantum_mem : policy.quantum ∈ policy.grid :=
  AddSubgroup.mem_zmultiples _

theorem PortfolioPolicyPlan.quantize_mem (round : ℚ → Int) (x : ℚ) :
    quantize round policy.quantum x ∈ policy.grid := by
  exact ⟨round (x / policy.quantum), zsmul_eq_mul _ _⟩

theorem PortfolioPolicyPlan.baseWeight_mem : policy.baseWeight count ∈ policy.grid :=
  policy.quantize_mem truncate _

theorem PortfolioPolicyPlan.eq_zero_of_lt (hx : x ∈ policy.grid) (h0 : 0 ≤ x)
    (hlt : x < policy.quantum) : x = 0 := by
  obtain ⟨k, rfl⟩ := AddSubgroup.mem_zmultiples_iff.mp hx
  have hpos := policy.quantum_pos
  have hnonneg : 0 ≤ k := by exact_mod_cast nonneg_of_mul_nonneg_left h0 hpos
  have hle : k < 1 := by exact_mod_cast (mul_lt_iff_lt_one_left hpos).mp hlt
  have hzero : k = 0 := by omega
  rw [hzero, zero_zsmul]

-- ==== the parts

/-- The parts of `count` lines. -/
def PortfolioPolicyPlan.parts (policy : PortfolioPolicyPlan) (count : Nat) :
    List ℚ :=
  handOut (policy.part (policy.baseWeight count)) count
    (policy.grossCap - policy.baseWeight count * count)

/-- Where the single limit binds, each part is what it has beyond the
base. -/
theorem PortfolioPolicyPlan.parts_of_limit (hcount : count ≠ 0)
    (hlimit : count * policy.maximumSingleWeight ≤ policy.grossCap) :
    policy.parts count = List.replicate count
      (policy.maximumSingleWeight - policy.baseWeight count) := by
  have hpos : (0 : ℚ) < count := by exact_mod_cast Nat.pos_of_ne_zero hcount
  have hraw : policy.rawWeight count = policy.maximumSingleWeight := by
    unfold PortfolioPolicyPlan.rawWeight
    rw [if_neg hcount]
    apply min_eq_left
    rw [le_div_iff₀ hpos, mul_comm]
    exact hlimit
  have hnext := (policy.baseWeight_bounds count).2.2
  rw [hraw] at hnext
  have hpart : policy.part (policy.baseWeight count)
      = policy.maximumSingleWeight - policy.baseWeight count := by
    apply min_eq_right
    linarith only [hnext]
  have hnonneg : 0 ≤ policy.part (policy.baseWeight count) := policy.part_nonneg
  unfold PortfolioPolicyPlan.parts
  rw [hpart] at hnonneg ⊢
  apply handOut_full hnonneg
  rw [nsmul_eq_mul, mul_sub, mul_comm (policy.baseWeight count)]
  linarith only [hlimit]

/-- What the cap has beyond the bases, where it binds: less than a part
each of all lines. -/
theorem PortfolioPolicyPlan.remaining_lt (hcount : count ≠ 0)
    (hcap : policy.grossCap < count * policy.maximumSingleWeight) :
    policy.grossCap - policy.baseWeight count * count
      < count * policy.part (policy.baseWeight count) := by
  have hpos : (0 : ℚ) < count := by exact_mod_cast Nat.pos_of_ne_zero hcount
  have hnext := (policy.baseWeight_bounds count).2.2
  unfold PortfolioPolicyPlan.rawWeight at hnext
  rw [if_neg hcount, min_eq_right ((div_lt_iff₀' hpos).mpr hcap).le, div_lt_iff₀' hpos] at hnext
  unfold PortfolioPolicyPlan.part
  rw [mul_min_of_nonneg _ _ hpos.le]
  apply lt_min
  · linarith only [hnext]
  · linarith only [hcap]

theorem PortfolioPolicyPlan.baseWeight_of_cap (hcount : count ≠ 0)
    (hcap : policy.grossCap < count * policy.maximumSingleWeight) :
    policy.baseWeight count = quantize truncate policy.quantum (policy.grossCap / count) := by
  have hpos : (0 : ℚ) < count := by exact_mod_cast Nat.pos_of_ne_zero hcount
  unfold PortfolioPolicyPlan.baseWeight PortfolioPolicyPlan.rawWeight
  rw [if_neg hcount, min_eq_right ((div_lt_iff₀' hpos).mpr hcap).le]

/-- Lines that the cap binds have parts on the grid, when the cap is on
it and its shares are or the limit has room for a quantum more. -/
theorem PortfolioPolicyPlan.parts_of_cap (hcount : count ≠ 0)
    (hcap : policy.grossCap < count * policy.maximumSingleWeight) :
    (∀ x ∈ policy.parts count, x ∈ policy.grid) ↔ policy.grossCap ∈ policy.grid
        ∧ (policy.grossCap / count ∈ policy.grid
          ∨ policy.baseWeight count + policy.quantum ≤ policy.maximumSingleWeight) := by
  have hpos : (0 : ℚ) < count := by exact_mod_cast Nat.pos_of_ne_zero hcount
  have hne : (count : ℚ) ≠ 0 := ne_of_gt hpos
  have hbases : policy.baseWeight count * count ∈ policy.grid := by
    rw [mul_comm, ← nsmul_eq_mul]
    exact policy.grid.nsmul_mem policy.baseWeight_mem count
  have hrest : 0 ≤ policy.grossCap - policy.baseWeight count * count := policy.remaining_nonneg
  have hpart : 0 ≤ policy.part (policy.baseWeight count) := policy.part_nonneg
  have hlt := policy.remaining_lt hcount hcap
  constructor
  · intro hall
    -- the parts come to the whole remainder
    have hsum := sum_handOut hpart (n := count) hrest
    rw [nsmul_eq_mul, min_eq_right hlt.le] at hsum
    have hremaining : policy.grossCap - policy.baseWeight count * count ∈ policy.grid := by
      rw [← hsum]
      exact policy.grid.list_sum_mem hall
    have hgross : policy.grossCap ∈ policy.grid := by
      have hadd := policy.grid.add_mem hremaining hbases
      rwa [sub_add_cancel] at hadd
    refine ⟨hgross, ?_⟩
    by_cases hroom : policy.baseWeight count + policy.quantum ≤ policy.maximumSingleWeight
    · exact .inr hroom
    · left
      -- the first part is below the quantum, so there is none
      obtain ⟨rest, rfl⟩ := Nat.exists_eq_succ_of_ne_zero hcount
      have hfirst : min (policy.part (policy.baseWeight (rest + 1)))
          (policy.grossCap - policy.baseWeight (rest + 1) * (rest + 1 : Nat)) = 0 := by
        apply policy.eq_zero_of_lt (hall _ mem_cons_self)
        · exact le_min policy.part_nonneg hrest
        · apply (min_le_left _ _).trans_lt
          apply (min_le_right _ _).trans_lt
          linarith only [hroom]
      have hnone : policy.grossCap - policy.baseWeight (rest + 1) * (rest + 1 : Nat) = 0 := by
        rcases min_choice (policy.part (policy.baseWeight (rest + 1)))
            (policy.grossCap - policy.baseWeight (rest + 1) * (rest + 1 : Nat))
          with heq | heq
        · rw [heq] at hfirst
          rw [hfirst, mul_zero] at hlt
          exact absurd hrest (not_le.mpr hlt)
        · rwa [heq] at hfirst
      rw [sub_eq_zero.mp hnone, mul_div_cancel_right₀ _ hne]
      exact policy.baseWeight_mem
  · rintro ⟨hgross, hshare | hroom⟩
    · -- the base is the share, and nothing is left
      have hbase : policy.baseWeight count = policy.grossCap / count := by
        obtain ⟨-, hle, hnext⟩ := policy.baseWeight_bounds count
        unfold PortfolioPolicyPlan.rawWeight at hle hnext
        rw [if_neg hcount, min_eq_right ((div_lt_iff₀' hpos).mpr hcap).le] at hle hnext
        have hdiff := policy.eq_zero_of_lt (policy.grid.sub_mem hshare policy.baseWeight_mem)
          (sub_nonneg.mpr hle) (by linarith only [hnext])
        exact (sub_eq_zero.mp hdiff).symm
      intro x hx
      have hbound := (mem_handOut policy.part_nonneg hrest hx)
      rw [hbase, div_mul_cancel₀ _ hne, sub_self] at hbound
      rw [le_antisymm hbound.2.2 hbound.1]
      exact policy.grid.zero_mem
    · have hpart : policy.part (policy.baseWeight count) = policy.quantum :=
        min_eq_left (by linarith only [hroom])
      intro x hx
      unfold PortfolioPolicyPlan.parts at hx
      rw [hpart] at hx
      exact handOut_mem_group policy.quantum_mem (policy.grid.sub_mem hgross hbases) hx

theorem PortfolioPolicyPlan.parts_grid :
    (∀ x ∈ policy.parts count, x ∈ policy.grid) ↔ policy.Fits count := by
  unfold PortfolioPolicyPlan.Fits
  by_cases hcount : count = 0
  · subst hcount
    simp [PortfolioPolicyPlan.parts, handOut]
  · have hbase : ∀ count, policy.baseWeight count ∈ policy.grid := fun _ => policy.baseWeight_mem
    by_cases hlimit : count * policy.maximumSingleWeight ≤ policy.grossCap
    · have hmem : policy.maximumSingleWeight - policy.baseWeight count
          ∈ policy.grid ↔ policy.maximumSingleWeight ∈ policy.grid := by
        constructor
        · intro h
          have hadd := policy.grid.add_mem h (hbase count)
          rwa [sub_add_cancel] at hadd
        · exact fun h => policy.grid.sub_mem h policy.baseWeight_mem
      rw [policy.parts_of_limit hcount hlimit]
      simp [hcount, hlimit, hmem, not_lt.mpr hlimit]
    · have hcap := not_le.mp hlimit
      rw [policy.parts_of_cap hcount hcap, policy.baseWeight_of_cap hcount hcap]
      simp [hcount, hcap, hlimit]

-- ==== the law

section Law

variable {portfolioProposalId commandReceiptId : Nat} {requestIdentity requestSha256 : String}
  {recordedAt : Int}

/-- The weights of what is built are on the grid, and come to the largest
number on it that the caps allow, exactly when the caps fit the grid for
the number of lines that are selected. -/
theorem weight_grid (portfolioProposalId : Nat)
    (prepared : PreparedPortfolioInputs) (policy : PortfolioPolicyPlan)
    (requestIdentity requestSha256 : String) (commandReceiptId : Nat)
    (recordedAt : Int) (lineIdFactory : PreparedPortfolioOpportunity → Nat)
    (p : PortfolioProposalAuthority)
    (hids : (prepared.opportunities.map (·.opportunityId)).Nodup)
    (hp : buildPortfolioProposal portfolioProposalId prepared policy
      requestIdentity requestSha256 commandReceiptId recordedAt lineIdFactory = .ok p) :
    WeightGrid policy p ↔ policy.Fits (selected prepared policy).length := by
  rw [build_eq hids] at hp
  simp only [bind_ok, require_ok, pure_ok] at hp
  obtain ⟨_, -, -, -, rfl⟩ := hp
  obtain ⟨hsource, hweight⟩ := plannedLines_included policy lineIdFactory hids
  have hlength := congrArg List.length hsource
  rw [length_map] at hlength
  have hsum := plannedLines_sum policy lineIdFactory hids
  have hbase : ∀ count, policy.baseWeight count ∈ policy.grid := fun _ => policy.baseWeight_mem
  rw [← policy.parts_grid]
  constructor
  · intro hgrid x hx
    -- a part is what an included line has beyond the base
    have hmem : policy.baseWeight (selected prepared policy).length + x
        ∈ ((plannedLines prepared policy lineIdFactory).filter
          (·.status = .included)).map (·.proposedWeight) := by
      rw [hweight]
      exact mem_map_of_mem hx
    obtain ⟨line, hline, heq⟩ := mem_map.mp hmem
    have hon := hgrid.weights line (mem_filter.mp hline).1
    rw [heq] at hon
    have hsub := policy.grid.sub_mem hon (hbase (selected prepared policy).length)
    rwa [add_sub_cancel_left] at hsub
  · intro hparts
    have hweights : ∀ line ∈ plannedLines prepared policy lineIdFactory,
        line.proposedWeight ∈ policy.grid := by
      intro line hline
      by_cases hstatus : line.status = .included
      · obtain ⟨x, hx, heq⟩ := included_weight hids
          (mem_filter.mpr ⟨hline, by simpa using hstatus⟩)
        rw [heq]
        exact policy.grid.add_mem policy.baseWeight_mem (hparts x hx)
      · rw [planLines_weight_zero hline hstatus]
        exact policy.grid.zero_mem
    constructor
    case weights => exact hweights
    case greatest =>
      have htotal : ((plannedLines prepared policy lineIdFactory).map
          (·.proposedWeight)).sum ∈ policy.grid := by
        apply policy.grid.list_sum_mem
        intro w hw
        obtain ⟨line, hline, rfl⟩ := mem_map.mp hw
        exact hweights line hline
      show IsGreatest {x | x ∈ policy.grid ∧ x ≤ min policy.grossCap
          (((plannedLines prepared policy lineIdFactory).filter
            (·.status = .included)).length * policy.maximumSingleWeight)} _
      rw [hlength, ← hsum]
      exact ⟨⟨htotal, le_rfl⟩, fun _ hx => hx.2⟩

end Law

theorem build_sample (policy : PortfolioPolicyPlan) : ∃ requestSha256,
    buildPortfolioProposal 1 samplePrepared policy "request-1"
        (String.ofList (List.replicate 64 'a')) 1 1 (·.opportunityId)
      = .ok (proposalOf 1 samplePrepared policy "request-1" requestSha256
        1 1 (·.opportunityId)) := by
  have hids : (samplePrepared.opportunities.map (·.opportunityId)).Nodup := by decide
  obtain ⟨requestSha256, hsha⟩ := exists_of_isOk (show (sha (String.ofList (List.replicate 64 'a'))
      "Portfolio request hash").isOk by decide)
  have htime : samplePrepared.opportunitySetRecordedAt ≤ 1 := by decide
  use requestSha256
  rw [build_eq hids, hsha, ok_bind, require_true htime]
  rfl

/-- The sample has a cap of 7/10 for three lines, on a grid of
thousandths. -/
theorem weight_grid_sample : ∃ p, buildPortfolioProposal 1 samplePrepared samplePolicy "request-1"
        (String.ofList (List.replicate 64 'a')) 1 1 (·.opportunityId) = .ok p
      ∧ WeightGrid samplePolicy p := by
  obtain ⟨_, hp⟩ := build_sample samplePolicy
  refine ⟨_, hp, (weight_grid _ _ _ _ _ _ _ _ _ (by decide) hp).mpr ?_⟩
  have hcount : (selected samplePrepared samplePolicy).length = 3 := by decide
  have hquantum : samplePolicy.quantum = 1 / 1000 := by
    norm_num [PortfolioPolicyPlan.quantum, samplePolicy]
  have hcap : samplePolicy.grossCap = 7 / 10 := by
    norm_num [PortfolioPolicyPlan.grossCap, samplePolicy]
  rw [hcount]
  right
  right
  refine ⟨?_, ?_, .inr ?_⟩
  · rw [hcap]
    norm_num [samplePolicy]
  · apply AddSubgroup.mem_zmultiples_iff.mpr
    exact ⟨700, by rw [zsmul_eq_mul, hquantum, hcap]; norm_num⟩
  · -- the base is at most the share
    have hpos : 0 < samplePolicy.quantum := samplePolicy.quantum_pos
    have hbase := (quantize_truncate hpos (show 0 ≤ samplePolicy.grossCap / (3 : Nat) by
        rw [hcap]
        norm_num)).2.1
    rw [hcap] at hbase ⊢
    apply (add_le_add_left hbase _).trans
    rw [hquantum]
    norm_num [samplePolicy]

/-- A policy whose single limit of 1/4 has two places, of which it keeps
one. -/
def coarsePolicy : PortfolioPolicyPlan :=
  { samplePolicy with decimalPlaces := 1, places := by decide }

theorem quarter_not_mem_grid : (1 / 4 : ℚ) ∉ coarsePolicy.grid := by
  intro h
  obtain ⟨k, hk⟩ := AddSubgroup.mem_zmultiples_iff.mp h
  have hquantum : coarsePolicy.quantum = 1 / 10 := by
    norm_num [PortfolioPolicyPlan.quantum, coarsePolicy]
  rw [zsmul_eq_mul, hquantum] at hk
  have hint : 2 * k = 5 := by
    have hcast : (2 * k : ℚ) = 5 := by linarith only [hk]
    exact_mod_cast hcast
  omega

/-- Three lines share a cap of 7/10 on a grid of tenths, and are given
1/4, 1/4 and 1/5. -/
theorem coarse_weights_leave_grid : ∃ p,
    buildPortfolioProposal 1 samplePrepared coarsePolicy "request-1"
        (String.ofList (List.replicate 64 'a')) 1 1 (·.opportunityId) = .ok p
      ∧ ¬ WeightGrid coarsePolicy p := by
  have hquarter : (1 / 4 : ℚ) ∈ (plannedLines samplePrepared coarsePolicy
      (·.opportunityId)).map (·.proposedWeight) := by decide +kernel
  obtain ⟨_, hp⟩ := build_sample coarsePolicy
  refine ⟨_, hp, ?_⟩
  intro hgrid
  obtain ⟨line, hline, hweight⟩ := mem_map.mp hquarter
  exact quarter_not_mem_grid (hweight ▸ hgrid.weights line hline)

end MarketRegimeAlpha.DecisionSupport
