/-
When a Risk decision is made at all.

# What a constructor lets through

A rule is accepted with any operator and any one threshold, whatever its
subject is. Of the subjects only the status of the proposal is a text, so
a rule that orders a text against a number, on either side, is accepted
and raises a `TypeError` when it is evaluated. The weights of the inputs
may be `Decimal`s that are not numbers, which cannot be ordered either.
`RiskPolicyPlan.Comparable` says that neither happens.
-/
import MarketRegimeAlpha.DecisionSupport.Proofs.RiskDecision

namespace MarketRegimeAlpha.DecisionSupport

open Lib List

variable {prepared : PreparedRiskInputs} {policy : RiskPolicyPlan} {rule : RiskRulePlan}
  {line : Option PreparedRiskLine} {value : Scalar}

def RiskRulePlan.weights (rule : RiskRulePlan) (prepared : PreparedRiskInputs) :
    List DecimalValue :=
  match rule.subject with
  | .grossWeight => [prepared.grossWeight]
  | .netWeight => [prepared.netWeight]
  | .cashWeight => [prepared.cashWeight]
  | .singleLineWeight => prepared.lines.map (·.proposedWeight)
  | .proposalStatus | .lineCount | .estimability | .qualificationPresence => []

structure RiskRulePlan.Comparable (rule : RiskRulePlan) (prepared : PreparedRiskInputs) : Prop where
  /-- A rule that orders compares texts or numbers, if it is for lines and
  there are none. -/
  types : rule.operator ≠ .equals → rule.scope = .global ∨ prepared.lines ≠ [] →
    (rule.subject = .proposalStatus ↔ rule.threshold.IsText)
  /-- A rule that orders weights has numbers. -/
  numbers : rule.operator ≠ .equals →
    ∀ weight ∈ rule.weights prepared, ∀ signaling, weight ≠ .nan signaling
  /-- A rule that equates weights with a number has no signaling one. -/
  quiet : rule.operator = .equals → ¬ rule.threshold.IsText →
    ∀ weight ∈ rule.weights prepared, weight ≠ .nan true

def RiskPolicyPlan.Comparable (policy : RiskPolicyPlan) (prepared : PreparedRiskInputs) : Prop :=
  ∀ rule ∈ policy.rules, rule.Comparable prepared

-- ==== what is read

/-- What the rule is evaluated on. -/
def Reads (prepared : PreparedRiskInputs) (rule : RiskRulePlan) (value : Scalar) : Prop :=
  ∃ line ∈ subjects prepared rule, observed prepared rule line = some value

theorem subjects_global (h : rule.subject ≠ .singleLineWeight) :
    subjects prepared rule = [none] := by
  unfold subjects
  rw [if_neg fun hline => h (rule.line_subject hline)]

theorem subjects_line (h : rule.subject = .singleLineWeight) :
    subjects prepared rule = prepared.lines.map some := by
  unfold subjects
  cases hscope : rule.scope with
  | global => exact absurd h (rule.global_subject hscope)
  | line => rfl

theorem observed_exists (hline : line ∈ subjects prepared rule) :
    ∃ value, observed prepared rule line = some value := by
  unfold observed
  cases hsubject : rule.subject with
  | singleLineWeight =>
    rw [subjects_line hsubject] at hline
    obtain ⟨item, -, rfl⟩ := mem_map.mp hline
    exact ⟨_, rfl⟩
  | _ => exact ⟨_, rfl⟩

theorem Reads.isText (h : Reads prepared rule value) :
    value.IsText ↔ rule.subject = .proposalStatus := by
  obtain ⟨line, hline, hvalue⟩ := h
  unfold observed at hvalue
  cases hsubject : rule.subject with
  | singleLineWeight =>
    rw [subjects_line hsubject] at hline
    obtain ⟨item, -, rfl⟩ := mem_map.mp hline
    rw [hsubject] at hvalue
    cases hvalue
    simp [Scalar.IsText]
  | _ =>
    rw [hsubject] at hvalue
    cases hvalue
    simp [Scalar.IsText]

/-- The `Decimal`s that are read are the weights. -/
theorem reads_decimal {weight : DecimalValue} :
    Reads prepared rule (.decimal weight) ↔ weight ∈ rule.weights prepared := by
  unfold Reads observed RiskRulePlan.weights
  by_cases hsubject : rule.subject = .singleLineWeight
  · rw [subjects_line hsubject, hsubject]
    simp
  · rw [subjects_global hsubject]
    cases hown : rule.subject with
    | singleLineWeight => exact absurd hown hsubject
    | _ => simp [eq_comm]

theorem reads_exists : (∃ value, Reads prepared rule value)
    ↔ rule.scope = .global ∨ prepared.lines ≠ [] := by
  have hread : (∃ value, Reads prepared rule value) ↔ subjects prepared rule ≠ [] := by
    constructor
    · rintro ⟨_, line, hline, -⟩
      exact ne_nil_of_mem hline
    · intro hsubjects
      obtain ⟨line, hline⟩ := exists_mem_of_ne_nil _ hsubjects
      obtain ⟨value, hvalue⟩ := observed_exists hline
      exact ⟨value, line, hline, hvalue⟩
  rw [hread]
  unfold subjects
  cases rule.scope with
  | global => simp
  | line => simp

-- ==== what is compared

theorem threshold_not_nan : ¬ rule.threshold.IsNan := by
  rintro ⟨signaling, heq⟩
  have hmem : rule.threshold ∈ rule.thresholds.present := head_mem _
  rw [heq] at hmem
  have hdecimal : rule.thresholds.decimalThreshold = some (.nan signaling) := by
    simpa [RiskThresholds.present] using hmem
  obtain ⟨_, hfinite⟩ := rule.finite_threshold _ hdecimal
  cases hfinite

theorem holds_isOk : (rule.operator.holds value rule.threshold).isOk
    ↔ (rule.operator ≠ .equals → (value.IsText ↔ rule.threshold.IsText) ∧ ¬ value.IsNan)
      ∧ (rule.operator = .equals → value.IsText ∨ rule.threshold.IsText
        ∨ value ≠ .decimal (.nan true)) := by
  have hnan : ¬ rule.threshold.IsNan := threshold_not_nan
  have hquiet : rule.threshold ≠ .decimal (.nan true) := by
    intro heq
    exact hnan ⟨true, heq⟩
  cases rule.operator with
  | equals => simp [RiskOperator.holds, equal_isOk, hquiet]
  | atMost => simp [RiskOperator.holds, atMost, ordered_isOk, hnan]
  | atLeast => simp [RiskOperator.holds, atLeast, ordered_isOk, hnan]

theorem compares_iff : (∀ line ∈ subjects prepared rule, ∃ result,
      compare rule (observed prepared rule line) = .ok result)
    ↔ ∀ value, Reads prepared rule value → (rule.operator.holds value rule.threshold).isOk := by
  constructor
  · rintro h value ⟨line, hline, hvalue⟩
    obtain ⟨result, hresult⟩ := h line hline
    simp only [hvalue, compare, bind_ok] at hresult
    obtain ⟨passed, hpassed, -⟩ := hresult
    rw [hpassed]
    rfl
  · intro h line hline
    obtain ⟨value, hvalue⟩ := observed_exists hline
    obtain ⟨passed, hpassed⟩ := exists_of_isOk (h value ⟨line, hline, hvalue⟩)
    simp only [hvalue, compare, hpassed]
    exact ⟨_, rfl⟩

theorem comparable_iff : rule.Comparable prepared ↔ ∀ value, Reads prepared rule value →
      (rule.operator.holds value rule.threshold).isOk := by
  constructor
  · intro h value hread
    rw [holds_isOk, hread.isText]
    constructor
    · intro hoperator
      refine ⟨h.types hoperator (reads_exists.mp ⟨value, hread⟩), ?_⟩
      rintro ⟨signaling, rfl⟩
      exact h.numbers hoperator _ (reads_decimal.mp hread) signaling rfl
    · intro hoperator
      by_cases htext : rule.threshold.IsText
      · exact .inr (.inl htext)
      · refine .inr (.inr ?_)
        rintro rfl
        exact h.quiet hoperator htext _ (reads_decimal.mp hread) rfl
  · intro h
    constructor
    case types =>
      intro hoperator hscope
      obtain ⟨value, hread⟩ := reads_exists.mpr hscope
      rw [← hread.isText]
      exact ((holds_isOk.mp (h value hread)).1 hoperator).1
    case numbers =>
      rintro hoperator _ hweight signaling rfl
      have hread := reads_decimal.mpr hweight
      exact ((holds_isOk.mp (h _ hread)).1 hoperator).2 ⟨signaling, rfl⟩
    case quiet =>
      rintro hoperator htext _ hweight rfl
      have hread := reads_decimal.mpr hweight
      rcases (holds_isOk.mp (h _ hread)).2 hoperator with hown | hown | hown
      · obtain ⟨_, hown⟩ := hown
        cases hown
      · exact htext hown
      · exact hown rfl

theorem capRule_comparable {ordinal : Nat} {ruleCode : String}
    {scope : RiskRuleScope} {subject : RiskSubject} {cap : ℚ}
    {hidentity : isCode ruleCode ∧ 1 ≤ ordinal}
    {hline : scope = .line → subject = .singleLineWeight}
    {hglobal : scope = .global → subject ≠ .singleLineWeight}
    (hsubject : subject ≠ .proposalStatus)
    (hweights : ∀ weight ∈ (capRule ordinal ruleCode scope subject cap
      hidentity hline hglobal).weights prepared, ∀ signaling, weight ≠ .nan signaling) :
    (capRule ordinal ruleCode scope subject cap hidentity hline hglobal).Comparable prepared := by
  constructor
  case types =>
    intro _ _
    constructor
    · exact fun hown => absurd hown hsubject
    · rintro ⟨_, hown⟩
      cases hown
  case numbers => exact fun _ => hweights
  case quiet => exact fun _ _ weight hweight => hweights weight hweight true

-- ==== the law

/-- With a hash of the request, a decision is made exactly when every rule
can be evaluated on the inputs. -/
theorem risk_decision_made_iff (riskDecisionId : Nat) (prepared : PreparedRiskInputs)
    (policy : RiskPolicyPlan) (requestIdentity requestSha256 : String) (commandReceiptId : Nat)
    (decidedAt : Int) (reasonIdFactory : RiskRulePlan → Option PreparedRiskLine → Nat)
    (hsha : isSha256 requestSha256 = true) :
    (∃ d, buildRiskDecision riskDecisionId prepared policy requestIdentity
      requestSha256 commandReceiptId decidedAt reasonIdFactory = .ok d)
      ↔ policy.Comparable prepared := by
  rw [build_exists hsha]
  constructor
  · intro h rule hrule
    exact comparable_iff.mpr (compares_iff.mp (h rule hrule))
  · intro h rule hrule
    exact compares_iff.mpr (comparable_iff.mp (h rule hrule))

/-- The caps of the sample are evaluated on its weights. -/
theorem risk_decision_made_iff_sample : ∃ d,
    buildRiskDecision 1 sampleRiskInputs sampleRiskPolicy "request-1"
      (String.ofList (List.replicate 64 'a')) 1 1
      (fun rule _ => rule.ordinal) = .ok d := by
  have hsha : isSha256 (String.ofList (List.replicate 64 'a')) = true := by decide
  apply (risk_decision_made_iff _ _ _ _ _ _ _ _ hsha).mpr
  intro rule hrule
  simp only [sampleRiskPolicy, mem_cons, not_mem_nil, or_false] at hrule
  rcases hrule with rfl | rfl
  · apply capRule_comparable (by decide)
    simp [RiskRulePlan.weights, capRule, sampleRiskInputs]
  · apply capRule_comparable (by decide)
    simp [RiskRulePlan.weights, capRule, sampleRiskInputs]

def textCap : RiskRulePlan :=
  { grossCap with
    thresholds := ⟨none, none, some "0.50", none⟩
    one_threshold := rfl
    finite_threshold := by simp }

def textPolicy : RiskPolicyPlan :=
  { sampleRiskPolicy with
    rules := [textCap]
    contiguous := by simp [textCap, grossCap, capRule]
    own_rules := fun _ hrule => mem_singleton.mp hrule ▸ rfl
    codes := by simp }

/-- The gross weight is compared with a text. -/
theorem text_cap_raises : buildRiskDecision 1 sampleRiskInputs textPolicy
    "request-1" (String.ofList (List.replicate 64 'a')) 1 1
    (fun rule _ => rule.ordinal) = .error (.typeError ("'<=' not supported between instances of "
        ++ "'decimal.Decimal' and 'str'")) := by
  rfl

end MarketRegimeAlpha.DecisionSupport
