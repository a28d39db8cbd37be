/-
The economics of a strategy trade: when the fill is within the capacity, and when the
return is that of the prices.

A ceiling of zero is read as no ceiling, so that the fill exceeds it whenever a lot is
bought (`within_capacity_iff`). The price of the entry is compared with nothing, and
that of the exit not where a barrier was not touched, so that the return is that of the
label's prices (`returns_consistent_iff`).
-/
import Mathlib
import MarketRegimeAlpha.Lib.Quantize
import MarketRegimeAlpha.Shadow.Economics

namespace MarketRegimeAlpha.Shadow

open Lib

-- ==== a run

namespace EconomicsInputs

variable {inputs : EconomicsInputs} {result : StrategyEconomicsResult} {values : EconomicsValues}
  {price : ℚ}

theorem values_of_makeResult (h : inputs.makeResult values = .ok result) :
    result.toEconomicsValues = values := by
  simp only [makeResult, bind_ok, pure_ok] at h
  obtain ⟨-, -, -, -, rfl⟩ := h
  rfl

/-- No trade is entered: for the score, for a reason, or as no lot is paid for. -/
def Refused (inputs : EconomicsInputs) : Prop := inputs.ScoreBelow ∨ inputs.HasReason entryReasons

instance : Decidable inputs.Refused := inferInstanceAs (Decidable (_ ∨ _))

/-- What an evaluation returns: a trade that is not entered, or the values of one of
which some quantity is filled. -/
theorem evaluate_cases (h : inputs.evaluateStrategyEconomics = .ok result) :
    0 < inputs.requestedNotional ∧ ((∃ reasons, result.toEconomicsValues = noEntry reasons
          ∧ (inputs.Refused
            ∨ ∃ price ∈ inputs.entryExecution.price, inputs.filledQuantity price = 0))
        ∨ (¬ inputs.Refused ∧ ∃ price ∈ inputs.entryExecution.price, inputs.filledQuantity price ≠ 0
              ∧ inputs.filledValues price = .ok result.toEconomicsValues)) := by
  rw [evaluateStrategyEconomics, bind_ok] at h
  obtain ⟨_, hcheck, h⟩ := h
  simp only [check, bind_ok, require_ok] at hcheck
  obtain ⟨-, hrequested, -⟩ := hcheck
  refine ⟨hrequested, ?_⟩
  by_cases hscore : inputs.ScoreBelow
  · rw [if_pos hscore] at h
    exact .inl ⟨_, values_of_makeResult h, .inl (.inl hscore)⟩
  rw [if_neg hscore] at h
  by_cases hreason : inputs.HasReason entryReasons
  · rw [if_pos hreason] at h
    exact .inl ⟨_, values_of_makeResult h, .inl (.inr hreason)⟩
  rw [if_neg hreason, bind_ok] at h
  obtain ⟨price, hprice, h⟩ := h
  have hprice := orRaise_ok.mp hprice
  by_cases hfilled : inputs.filledQuantity price = 0
  · rw [if_pos hfilled] at h
    exact .inl ⟨_, values_of_makeResult h, .inr ⟨price, hprice, hfilled⟩⟩
  · rw [if_neg hfilled, bind_ok] at h
    obtain ⟨values, hvalues, h⟩ := h
    rw [values_of_makeResult h]
    exact .inr ⟨not_or.mpr ⟨hscore, hreason⟩, price, hprice, hfilled, hvalues⟩

/-- The values of a filled trade have its quantity, and those of an available one the
exit. -/
theorem filledValues_ok (h : inputs.filledValues price = .ok values) :
    values.filledQuantity = inputs.filledQuantity price
      ∧ (values.status = .available → ∃ exitPrice gross added,
        inputs.exitValues price = .ok ((exitPrice, gross), added)
          ∧ values.entryPrice = some price ∧ values.exitPrice = some exitPrice
          ∧ values.grossReturn = some gross
          ∧ values.costReturn = some inputs.costReturn
          ∧ values.netReturn = some (gross - inputs.costReturn)) := by
  unfold filledValues at h
  split at h
  · cases h
    exact ⟨rfl, nofun⟩
  · rw [bind_ok] at h
    obtain ⟨⟨⟨exitPrice, gross⟩, added⟩, hexit, h⟩ := h
    cases h
    exact ⟨rfl, fun _ => ⟨exitPrice, gross, added, hexit, rfl, rfl, rfl, rfl, rfl⟩⟩

end EconomicsInputs

-- ==== the capacity

namespace LiquidityCapacityAssessment

variable {symbol : String} {asOfDate : Day} {reference : ValidationArtifactReference}
  {bars : List LiquidityBar} {requestedPosition requestedOrder : ℚ}
  {protocol : LiquidityCapacityProtocol} {createdAt : Instant}
  {assessment : LiquidityCapacityAssessment}

theorem mean_nonneg {amounts : List ℚ} (h : ∀ amount ∈ amounts, 0 ≤ amount) :
    ∀ average ∈ mean amounts, 0 ≤ average := by
  intro average haverage
  unfold mean at haverage
  split at haverage
  · cases haverage
  · cases haverage
    exact div_nonneg (List.sum_nonneg h) (Nat.cast_nonneg _)

theorem average_ne_zero {latest : Option LiquidityBar} {adv20 orderAdv : Option ℚ}
    (h : 0 < fillabilityOf latest adv20 orderAdv) : ∃ average ∈ adv20, average ≠ 0 := by
  unfold fillabilityOf at h
  split at h
  · cases h.ne rfl
  · next hnot =>
    cases adv20 with
    | none => simp at hnot
    | some average =>
      refine ⟨average, rfl, ?_⟩
      rintro rfl
      simp at hnot

theorem create_capacity (h : create symbol asOfDate reference bars requestedPosition
      requestedOrder protocol createdAt = .ok assessment) :
    0 ≤ assessment.fillability ∧ assessment.fillability ≤ 1
      ∧ (∀ average ∈ assessment.adv20, 0 ≤ average)
      ∧ (0 < assessment.fillability → ∃ average ∈ assessment.adv20, average ≠ 0)
      ∧ assessment.capacityCeiling = (protocol.parameter "participation_rate").bind
        fun item => assessment.adv20.map (· * item.value) := by
  simp only [create, bind_ok, pure_ok] at h
  obtain ⟨_, hcheck, rfl⟩ := h
  simp only [check, bind_ok, require_ok] at hcheck
  obtain ⟨-, ⟨hlow, hhigh⟩, -⟩ := hcheck
  refine ⟨hlow, hhigh, mean_nonneg ?_, average_ne_zero, rfl⟩
  intro amount hamount
  obtain ⟨bar, -, hbar⟩ := List.mem_filterMap.mp (List.mem_of_mem_drop hamount)
  exact bar.amount_nonneg amount hbar

end LiquidityCapacityAssessment

namespace EconomicsInputs

variable {inputs : EconomicsInputs} {price : ℚ}

structure WithinCapacity (inputs : EconomicsInputs) (price filled : ℚ) : Prop where
  lots : ∃ count : ℕ, filled = count * inputs.policy.lotSize
  requested : filled * price ≤ inputs.requestedNotional
  fillable : filled * price ≤ inputs.requestedNotional * inputs.liquidity.fillability
  ceiling : ∀ ceiling ∈ inputs.liquidity.capacityCeiling, filled * price ≤ ceiling

theorem lotSize_pos : (0 : ℚ) < inputs.policy.lotSize := by
  rw [inputs.policy.lot_size_eq]
  norm_num

/-- The whole lots that a notional pays for cost at most that, and there is one where
it pays for one. -/
theorem filledQuantity_spec (hnotional : 0 ≤ inputs.executableNotional) (hprice : 0 < price) :
    (∃ count : ℕ, inputs.filledQuantity price = count * inputs.policy.lotSize)
      ∧ inputs.filledQuantity price * price ≤ inputs.executableNotional
      ∧ (inputs.filledQuantity price ≠ 0 ↔
        price * inputs.policy.lotSize ≤ inputs.executableNotional) := by
  have hlot := @lotSize_pos inputs
  have hquantity : 0 ≤ inputs.executableNotional / price := div_nonneg hnotional hprice.le
  have hcount : 0 ≤ roundDown (inputs.executableNotional / price / inputs.policy.lotSize) := by
    unfold roundDown
    rw [if_pos (div_nonneg hquantity hlot.le)]
    exact Int.floor_nonneg.mpr (div_nonneg hquantity hlot.le)
  obtain ⟨hnonneg, hle, hlt⟩ := quantize_truncate hlot hquantity
  obtain ⟨count, hcount⟩ := Int.eq_ofNat_of_zero_le hcount
  have hfilled : inputs.filledQuantity price = count * inputs.policy.lotSize := by
    unfold filledQuantity lotFloor
    rw [hcount, Int.cast_natCast]
  change _ < inputs.filledQuantity price + _ at hlt
  refine ⟨⟨count, hfilled⟩, (le_div_iff₀ hprice).mp hle, fun hne => ?_, fun hlot' hzero => ?_⟩
  · have hone : 1 ≤ count := by
      refine Nat.one_le_iff_ne_zero.mpr fun hzero => hne ?_
      rw [hfilled, hzero, Nat.cast_zero, zero_mul]
    have hone : (1 : ℚ) ≤ count := by exact_mod_cast hone
    calc price * inputs.policy.lotSize = 1 * inputs.policy.lotSize * price := by ring
      _ ≤ count * inputs.policy.lotSize * price := by gcongr
      _ = inputs.filledQuantity price * price := by rw [hfilled]
      _ ≤ inputs.executableNotional := (le_div_iff₀ hprice).mp hle
  · rw [hzero, zero_add, div_lt_iff₀ hprice] at hlt
    linarith only [hlt, hlot']

theorem executableNotional_le : inputs.executableNotional ≤ inputs.requestedNotional
      ∧ inputs.executableNotional ≤ inputs.requestedNotional * inputs.liquidity.fillability
      ∧ ∀ ceiling ∈ inputs.liquidity.capacityCeiling, ceiling ≠ 0 →
        inputs.executableNotional ≤ ceiling := by
  refine ⟨(min_le_left _ _).trans (min_le_left _ _), min_le_right _ _, ?_⟩
  intro ceiling hceiling hne
  refine (min_le_left _ _).trans ((min_le_right _ _).trans_eq ?_)
  rw [hceiling, Option.filter_some, if_pos (by simpa using hne), Option.getD_some]

theorem executableNotional_zero (hceiling : inputs.liquidity.capacityCeiling = some 0)
    (hrequested : 0 < inputs.requestedNotional) (hfill : inputs.liquidity.fillability ≤ 1) :
    inputs.executableNotional = inputs.requestedNotional * inputs.liquidity.fillability := by
  unfold executableNotional
  rw [hceiling]
  simp only [ne_eq, not_true_eq_false, decide_false, Option.filter_some, Bool.false_eq_true,
    if_false, Option.getD_none, min_self]
  exact min_eq_right (mul_le_of_le_one_right hrequested.le hfill)

theorem executableNotional_nonneg (hrequested : 0 < inputs.requestedNotional)
    (hfill : 0 ≤ inputs.liquidity.fillability)
    (hceiling : ∀ ceiling ∈ inputs.liquidity.capacityCeiling, 0 ≤ ceiling) :
    0 ≤ inputs.executableNotional := by
  refine le_min (le_min hrequested.le ?_) (mul_nonneg hrequested.le hfill)
  cases h : inputs.liquidity.capacityCeiling.filter (· ≠ 0) with
  | none => exact hrequested.le
  | some ceiling => exact hceiling ceiling (Option.filter_eq_some_iff.mp h).1

theorem fillability_pos (h : ¬ inputs.Refused) : 0 < inputs.liquidity.fillability := by
  by_contra hnot
  refine h (.inr ⟨"LIQUIDITY_FILLABILITY_ZERO", by simp [entryReasons], ?_⟩)
  simp [reasons, not_lt.mp hnot]

/-- The participation rate is zero, and the trade is entered with a lot that the
fillable request pays for. -/
def CeilingIgnored (inputs : EconomicsInputs) (protocol : LiquidityCapacityProtocol)
    (price : ℚ) : Prop :=
  (protocol.parameter "participation_rate").map (·.value) = some 0 ∧ ¬ inputs.Refused
    ∧ price * inputs.policy.lotSize ≤ inputs.requestedNotional * inputs.liquidity.fillability

section Capacity

variable {symbol : String} {asOfDate : Day} {reference : ValidationArtifactReference}
  {bars : List LiquidityBar} {requestedPosition requestedOrder : ℚ}
  {protocol : LiquidityCapacityProtocol} {createdAt : Instant} {result : StrategyEconomicsResult}

/-- The fill is within the capacity of the assessment exactly where no ceiling of zero
is ignored. -/
theorem within_capacity_iff
    (hcreate : LiquidityCapacityAssessment.create symbol asOfDate reference bars
      requestedPosition requestedOrder protocol createdAt = .ok inputs.liquidity)
    (hrate : ∀ item ∈ protocol.parameter "participation_rate", 0 ≤ item.value)
    (hprice : inputs.entryExecution.price = some price)
    (h : inputs.evaluateStrategyEconomics = .ok result) :
    inputs.WithinCapacity price result.filledQuantity ↔ ¬ inputs.CeilingIgnored protocol price := by
  obtain ⟨hlow, hhigh, hadv, hpositive, hceilingOf⟩ :=
    LiquidityCapacityAssessment.create_capacity hcreate
  obtain ⟨hrequested, hcases⟩ := evaluate_cases h
  have hpos : 0 < price := inputs.entryExecution.price_pos price hprice
  have hceiling : ∀ ceiling ∈ inputs.liquidity.capacityCeiling, 0 ≤ ceiling ∧
      (ceiling = 0 → 0 < inputs.liquidity.fillability →
        (protocol.parameter "participation_rate").map (·.value) = some 0) := by
    intro ceiling hmem
    rw [hceilingOf] at hmem
    obtain ⟨item, hitem, hmem⟩ := Option.bind_eq_some_iff.mp hmem
    obtain ⟨average, haverage, rfl⟩ := Option.map_eq_some_iff.mp hmem
    refine ⟨mul_nonneg (hadv average haverage) (hrate item hitem), fun hzero hfill => ?_⟩
    obtain ⟨average', haverage', hne⟩ := hpositive hfill
    cases Option.mem_unique haverage haverage'
    rw [hitem, Option.map_some, (mul_eq_zero.mp hzero).resolve_left hne]
  obtain ⟨hlots, hle, hsome⟩ := filledQuantity_spec
    (executableNotional_nonneg hrequested hlow fun c hc => (hceiling c hc).1) hpos
  obtain ⟨hleRequested, hleFillable, hleCeiling⟩ := @executableNotional_le inputs
  rcases hcases with ⟨reasons, hvalues, hnone⟩ | ⟨hentered, price', hprice', hfilled, hvalues⟩
  · -- nothing is filled
    have hzero : result.filledQuantity = 0 := congrArg (·.filledQuantity) hvalues
    rw [hzero]
    refine iff_of_true ⟨⟨0, by simp⟩, ?_, ?_, ?_⟩ ?_
    · simpa using hrequested.le
    · simpa using mul_nonneg hrequested.le hlow
    · simpa using fun ceiling hmem => (hceiling ceiling hmem).1
    · rintro ⟨hzeroRate, hentered, hlot⟩
      obtain ⟨average, haverage, -⟩ := hpositive (fillability_pos hentered)
      obtain ⟨item, hitem, hvalue⟩ := Option.map_eq_some_iff.mp hzeroRate
      have hignored : inputs.liquidity.capacityCeiling = some 0 := by
        rw [hceilingOf, hitem, haverage]
        simp [hvalue]
      rcases hnone with hrefused | ⟨price', hprice', hnone⟩
      · exact hentered hrefused
      · cases Option.mem_unique hprice hprice'
        refine hsome.mpr ?_ hnone
        rw [executableNotional_zero hignored hrequested hhigh]
        exact hlot
  · cases Option.mem_unique hprice hprice'
    have heq : result.filledQuantity = inputs.filledQuantity price := (filledValues_ok hvalues).1
    rw [heq]
    have hlot := hsome.mp hfilled
    constructor
    · -- an ignored ceiling is zero, and the fill costs something
      rintro hwithin ⟨hzeroRate, -, -⟩
      obtain ⟨average, haverage, -⟩ := hpositive (fillability_pos hentered)
      obtain ⟨item, hitem, hvalue⟩ := Option.map_eq_some_iff.mp hzeroRate
      have hnot := hwithin.ceiling 0 (by rw [hceilingOf, hitem, haverage]; simp [hvalue])
      obtain ⟨count, hcount⟩ := hlots
      have hnonneg : 0 ≤ inputs.filledQuantity price := by
        rw [hcount]
        exact mul_nonneg (Nat.cast_nonneg _) lotSize_pos.le
      exact absurd (mul_pos (lt_of_le_of_ne hnonneg hfilled.symm) hpos) (not_lt.mpr hnot)
    · intro hnot
      refine ⟨hlots, hle.trans hleRequested, hle.trans hleFillable, fun ceiling hmem => ?_⟩
      refine hle.trans (hleCeiling ceiling hmem fun hzero => hnot ⟨?_, hentered, ?_⟩)
      · exact (hceiling ceiling hmem).2 hzero (fillability_pos hentered)
      · exact hlot.trans hleFillable

end Capacity

-- ==== the return

section Returns

variable {result : StrategyEconomicsResult} {exit gross : ℚ}

def ReturnsConsistent (result : StrategyEconomicsResult) : Prop :=
  (∃ entry ∈ result.entryPrice, ∃ exit ∈ result.exitPrice,
      result.grossReturn = some (exit / entry - 1))
    ∧ ∃ gross ∈ result.grossReturn, ∃ cost ∈ result.costReturn,
      result.netReturn = some (gross - cost)

def Touched (inputs : EconomicsInputs) : Prop :=
  inputs.policy.exitKind = .barrier ∧ ∃ passage ∈ inputs.selectedPassage, passage ≠ none

def PricesAgree (inputs : EconomicsInputs) : Prop :=
  ∀ entry ∈ inputs.entryExecution.price, ∀ exit ∈ inputs.exitExecution.price,
  ∀ reference ∈ inputs.label.decisionReferencePrice, ∀ price ∈ inputs.label.checkpointPrice,
    exit * reference = price * entry

theorem checkpointReturn_eq (label : TargetOutcomeLabel) {gross : ℚ}
    (h : label.checkpointReturn = some gross) :
    ∃ reference ∈ label.decisionReferencePrice, ∃ price ∈ label.checkpointPrice,
      reference ≠ 0 ∧ gross = (price - reference) / reference := by
  by_cases hschema : label.schemaVersion = .v3
  · obtain ⟨semantic, hsemantic⟩ := Option.ne_none_iff_exists'.mp (label.semantic_v3.mp hschema)
    have heq := (label.semantic_eq semantic hsemantic).1
    rw [heq] at h ⊢
    exact semantic.return_eq gross h
  · obtain ⟨reference, hreference⟩ := Option.ne_none_iff_exists'.mp (label.legacy_reference hschema)
    obtain ⟨hne, hreturn⟩ := label.legacy_return hschema reference hreference
    rw [hreturn] at h
    obtain ⟨price, hprice, rfl⟩ := Option.map_eq_some_iff.mp h
    exact ⟨reference, hreference, price, hprice, hne (by rw [hprice]; nofun), rfl⟩

/-- An exit at the fixed time has the price of the execution and the return of the
label. -/
theorem fixedExit_ok (h : inputs.fixedExit = .ok (exit, gross)) :
    inputs.exitExecution.price = some exit ∧ inputs.label.checkpointReturn = some gross := by
  unfold fixedExit at h
  split at h
  · next hexit hgross =>
    cases h
    exact ⟨hexit, hgross⟩
  · cases h

/-- The exit of a touched barrier has the return of the barrier; any other is at the
fixed time. -/
theorem exitValues_ok {added : List String}
    (h : inputs.exitValues price = .ok ((exit, gross), added)) :
    (inputs.Touched ∧ exit = price * (1 + gross))
      ∨ (¬ inputs.Touched ∧ inputs.fixedExit = .ok (exit, gross)) := by
  unfold exitValues at h
  split at h
  · next hkind =>
    simp only [bind_ok] at h
    obtain ⟨barrierReturn, -, passage, hpassage, h⟩ := h
    have hpassage := orRaise_ok.mp hpassage
    split at h
    · next hnone =>
      obtain ⟨values, hfixed, h⟩ := bind_ok.mp h
      cases h
      refine .inr ⟨?_, hfixed⟩
      rintro ⟨-, passage', hpassage', hne⟩
      cases Option.mem_unique hpassage hpassage'
      exact hne hnone
    · next hne =>
      obtain ⟨-, -, h⟩ := bind_ok.mp h
      cases h
      exact .inl ⟨⟨hkind, passage, hpassage, hne⟩, rfl⟩
  · next hkind =>
    obtain ⟨values, hfixed, h⟩ := bind_ok.mp h
    obtain ⟨-, -, h⟩ := bind_ok.mp h
    cases h
    exact .inr ⟨fun htouched => hkind htouched.1, hfixed⟩

/-- The returns of an available result are consistent exactly where the barrier was
touched, or the executions agree with the prices of the label. -/
theorem returns_consistent_iff (h : inputs.evaluateStrategyEconomics = .ok result)
    (havailable : result.status = .available) :
    ReturnsConsistent result ↔ inputs.Touched ∨ inputs.PricesAgree := by
  obtain ⟨-, ⟨reasons, hvalues, -⟩ | ⟨-, price, hprice, -, hvalues⟩⟩ := evaluate_cases h
  · rw [hvalues] at havailable
    cases havailable
  obtain ⟨exit, gross, added, hexit, hentry, hexitPrice, hgross, hcost, hnet⟩ :=
    (filledValues_ok hvalues).2 havailable
  have hpos : price ≠ 0 := (inputs.entryExecution.price_pos price hprice).ne'
  have hreturns : ReturnsConsistent result ↔ gross = exit / price - 1 := by
    unfold ReturnsConsistent
    rw [hentry, hexitPrice, hgross, hcost, hnet]
    simp
  rw [hreturns]
  rcases exitValues_ok hexit with ⟨htouched, rfl⟩ | ⟨huntouched, hfixed⟩
  · refine iff_of_true ?_ (.inl htouched)
    field_simp
    ring
  · obtain ⟨hexitPrice, hreturn⟩ := fixedExit_ok hfixed
    obtain ⟨reference, hreference, checkpoint, hcheckpoint, hne, rfl⟩ :=
      checkpointReturn_eq inputs.label hreturn
    have hagree : inputs.PricesAgree ↔ exit * reference = checkpoint * price := by
      unfold PricesAgree
      rw [hprice, hexitPrice, hreference, hcheckpoint]
      simp
    rw [or_iff_right huntouched, hagree]
    rw [sub_div, div_self hne, sub_left_inj, div_eq_div_iff hne hpos]
    exact eq_comm

end Returns

-- ==== a sample

variable (rate : ℚ)

def sampleProtocol : LiquidityCapacityProtocol where
  protocolId := "protocol"
  protocolHash := "sha256:protocol"
  parameters := [⟨"participation_rate", rate, .engineeringAssumption, none, nofun, nofun⟩]
  parameters_sorted := List.pairwise_singleton _ _

def sampleAssessment : Except Raised LiquidityCapacityAssessment :=
  LiquidityCapacityAssessment.create "600000" 0 ⟨"MARKET_DATA", "data", "sha256:data"⟩
    [⟨"600000", 0, some 1000000, none, .trading, .normal, by simp⟩] 0 0 (sampleProtocol rate) 0

theorem zero_parameter : (0 : ℚ) ≤ 0 := le_rfl

def samplePolicy : StrategyEconomicsPolicy where
  policyId := "policy"
  policyHash := "sha256:policy"
  predictionTargetReference := ⟨"OUTCOME_TARGET_DEFINITION", "target", "sha256:target"⟩
  exitKind := .fixedTime
  barrierId := none
  barrierReturn := none
  forecastRawScoreThreshold := none
  lotSize := 100
  parameters := ["commission_bps", "spread_slippage_bps", "stamp_duty_bps"].map fun name =>
    ⟨name, 0, .engineeringAssumption, zero_parameter⟩
  limitations := []
  lot_size_eq := Nat.zero_add 100
  parameters_exact := by simp [or_comm]
  parameters_sorted := by decide
  barrier_bound := nofun
  barrier_unbound := fun _ => ⟨rfl, rfl⟩
  threshold_bound := by simp

def sampleLabel : TargetOutcomeLabel where
  symbol := "600000"
  labelIntervalStart := 0
  labelIntervalEnd := 1
  decisionReferencePrice := some 10
  checkpointPrice := some 11
  checkpointReturn := some (1 / 10)
  mfe := none
  mae := none
  barrierPassages := []
  barrierOrdering := .notApplicable
  labelId := "label"
  labelHash := "sha256:label"
  target := ⟨"OUTCOME_TARGET_DEFINITION", "target", "sha256:target"⟩
  availabilityStatus := .complete
  outcomeAvailableAt := 1
  reasonCodes := []
  schemaVersion := .v2
  semanticResult := none
  interval_advances := by decide
  available_after := le_rfl
  legacy_reference := by simp
  legacy_return := by norm_num
  semantic_v3 := by simp
  semantic_eq := by simp
  passages_sorted := .nil
  ambiguous_reason := nofun
  reasons_sorted := .nil

def sampleInputs (price : {price : ℚ // 0 < price}) (liquidity : LiquidityCapacityAssessment) :
    EconomicsInputs where
  policy := samplePolicy
  label := sampleLabel
  liquidity := liquidity
  liquidityReference := ⟨"LIQUIDITY_CAPACITY_ASSESSMENT", "liquidity", "sha256:liquidity"⟩
  entryExecution := ⟨.entry, "600000", some price, [.trading], 0, 0,
    ⟨"EXECUTION", "entry", "sha256:entry"⟩, by simpa using price.property, le_rfl⟩
  exitExecution := ⟨.exit, "600000", some 11, [.trading], 1, 1,
    ⟨"EXECUTION", "exit", "sha256:exit"⟩, by norm_num, le_rfl⟩
  requestedNotional := 10000
  evaluatedAt := 1
  forecastRawScore := none

def sampleRun (price : {price : ℚ // 0 < price}) : Except Raised (Option ℚ × EconomicsValues) := do
  let liquidity ← sampleAssessment rate
  let result ← (sampleInputs price liquidity).evaluateStrategyEconomics
  return (liquidity.capacityCeiling, result.toEconomicsValues)

def sampleValues (filled price : ℚ) : EconomicsValues :=
  ⟨.available, filled, some price, some 11, some (1 / 10), some 0, some (1 / 10), 2,
    ["ECONOMICS_AVAILABLE"]⟩

theorem sampleRun_ok {rate : ℚ} {price : {price : ℚ // 0 < price}} {ceiling : Option ℚ}
    {values : EconomicsValues} (h : sampleRun rate price = .ok (ceiling, values)) :
    ∃ liquidity result, sampleAssessment rate = .ok liquidity
      ∧ (sampleInputs price liquidity).evaluateStrategyEconomics = .ok result
      ∧ liquidity.capacityCeiling = ceiling ∧ result.toEconomicsValues = values := by
  obtain ⟨liquidity, hcreate, h⟩ := bind_ok.mp h
  obtain ⟨result, hresult, h⟩ := bind_ok.mp h
  obtain ⟨hceiling, hvalues⟩ := Prod.mk.inj (pure_ok.mp h)
  exact ⟨liquidity, result, hcreate, hresult, hceiling, hvalues⟩

theorem zero_ceiling_exceeded : ∃ liquidity result, sampleAssessment 0 = .ok liquidity
      ∧ (sampleInputs ⟨20, by norm_num⟩ liquidity).evaluateStrategyEconomics = .ok result
      ∧ ¬ (sampleInputs ⟨20, by norm_num⟩ liquidity).WithinCapacity 20 result.filledQuantity := by
  obtain ⟨liquidity, result, hcreate, hresult, hceiling, hvalues⟩ := sampleRun_ok
    (show sampleRun 0 ⟨20, by norm_num⟩ = .ok (some 0, sampleValues 500 20) by decide +kernel)
  refine ⟨liquidity, result, hcreate, hresult, fun hwithin => ?_⟩
  have h := hwithin.ceiling 0 hceiling
  rw [hvalues] at h
  norm_num [sampleValues] at h

theorem within_capacity_iff_sample : ∃ liquidity result, sampleAssessment (1 / 100) = .ok liquidity
      ∧ (sampleInputs ⟨10, by norm_num⟩ liquidity).evaluateStrategyEconomics = .ok result
      ∧ (sampleInputs ⟨10, by norm_num⟩ liquidity).WithinCapacity 10 result.filledQuantity := by
  obtain ⟨liquidity, result, hcreate, hresult, -⟩ := sampleRun_ok
    (show sampleRun (1 / 100) ⟨10, by norm_num⟩ = .ok (some 10000, sampleValues 1000 10) by
      decide +kernel)
  refine ⟨liquidity, result, hcreate, hresult, (within_capacity_iff
    (show _ = Except.ok (sampleInputs ⟨10, by norm_num⟩ liquidity).liquidity from hcreate)
    ?_ rfl hresult).mpr ?_⟩
  · norm_num [sampleProtocol, LiquidityCapacityProtocol.parameter]
  · norm_num [CeilingIgnored, sampleProtocol, LiquidityCapacityProtocol.parameter]

theorem entry_price_diverges : ∃ liquidity result, sampleAssessment 0 = .ok liquidity
      ∧ (sampleInputs ⟨20, by norm_num⟩ liquidity).evaluateStrategyEconomics = .ok result
      ∧ result.status = .available ∧ ¬ ReturnsConsistent result := by
  obtain ⟨liquidity, result, hcreate, hresult, -, hvalues⟩ := sampleRun_ok
    (show sampleRun 0 ⟨20, by norm_num⟩ = .ok (some 0, sampleValues 500 20) by decide +kernel)
  refine ⟨liquidity, result, hcreate, hresult, by rw [hvalues]; rfl, ?_⟩
  rintro ⟨hgross, -⟩
  rw [hvalues] at hgross
  norm_num [sampleValues] at hgross

theorem returns_consistent_iff_sample : ∃ liquidity result,
    sampleAssessment (1 / 100) = .ok liquidity
      ∧ (sampleInputs ⟨10, by norm_num⟩ liquidity).evaluateStrategyEconomics = .ok result
      ∧ ReturnsConsistent result := by
  obtain ⟨liquidity, result, hcreate, hresult, -, hvalues⟩ := sampleRun_ok
    (show sampleRun (1 / 100) ⟨10, by norm_num⟩ = .ok (some 10000, sampleValues 1000 10) by
      decide +kernel)
  refine ⟨liquidity, result, hcreate, hresult, (returns_consistent_iff hresult
    (by rw [hvalues]; rfl)).mpr (.inr ?_)⟩
  norm_num [PricesAgree, sampleInputs, sampleLabel]

end EconomicsInputs

end MarketRegimeAlpha.Shadow
