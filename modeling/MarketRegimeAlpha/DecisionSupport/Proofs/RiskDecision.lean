/-
The Risk decision fails closed.

# One fact for everything

The status of a decision reads off its reasons only whether some rule
failed that rejects, and whether some rule failed or is unknown. So it
is a function of which results there are (`decisionStatus_subset`): not
of their order, and a result more can only raise it. What results there
are is a fact of the rules, one at a time (`mem_outcomes`).
-/
import MarketRegimeAlpha.DecisionSupport.Risk

namespace MarketRegimeAlpha.DecisionSupport

open Lib List

variable {prepared : PreparedRiskInputs} {policy policy' : RiskPolicyPlan}
  {rule rule' : RiskRulePlan} {line : Option PreparedRiskLine} {rules rules' : List RiskRulePlan}

-- ==== the order

/-- How far a status is from letting the proposal pass. -/
def RiskDecisionStatus.rank : RiskDecisionStatus → Nat
  | .authorized => 0
  | .noAction => 0
  | .unknown => 1
  | .rejected => 2

/-- The rules take each other's place: they differ in what identifies
them alone. -/
structure RiskRulePlan.Alike (a b : RiskRulePlan) : Prop where
  scope : a.scope = b.scope
  subject : a.subject = b.subject
  operator : a.operator = b.operator
  thresholds : a.thresholds = b.thresholds
  severity : a.severity = b.severity
  missingAction : a.missingAction = b.missingAction

-- ==== the outcomes

/-- A result with the severity of its rule, for one rule and subject of
the loops. -/
def Outcome (prepared : PreparedRiskInputs) (rules : List RiskRulePlan)
    (item : RiskRuleResult × RiskSeverity) : Prop :=
  ∃ rule ∈ rules, rule.severity = item.2 ∧ ∃ line ∈ subjects prepared rule,
    compare rule (observed prepared rule line) = .ok item.1

def Compares (prepared : PreparedRiskInputs) (rules : List RiskRulePlan) :
    Prop :=
  ∀ rule ∈ rules, ∀ line ∈ subjects prepared rule, ∃ result,
    compare rule (observed prepared rule line) = .ok result

theorem compare_alike (h : rule.Alike rule') (line : Option PreparedRiskLine) :
    compare rule (observed prepared rule line) = compare rule' (observed prepared rule' line) := by
  have hobserved : observed prepared rule line = observed prepared rule' line := by
    unfold observed
    rw [h.subject]
  have hthreshold : rule.threshold = rule'.threshold := by
    unfold RiskRulePlan.threshold
    simp only [h.thresholds]
  rw [hobserved]
  cases observed prepared rule' line with
  | none => simp only [compare, h.missingAction]
  | some value => simp only [compare, h.operator, hthreshold]

theorem subjects_alike (h : rule.Alike rule') :
    subjects prepared rule = subjects prepared rule' := by
  unfold subjects
  rw [h.scope]

theorem Outcome.alike {item : RiskRuleResult × RiskSeverity}
    (h : ∀ rule ∈ rules, ∃ rule' ∈ rules', rule.Alike rule')
    (hitem : Outcome prepared rules item) : Outcome prepared rules' item := by
  obtain ⟨rule, hrule, hseverity, line, hline, hresult⟩ := hitem
  obtain ⟨rule', hrule', halike⟩ := h rule hrule
  refine ⟨rule', hrule', ?_, line, ?_, ?_⟩
  · rw [← halike.severity]
    exact hseverity
  · rw [← subjects_alike halike]
    exact hline
  · rw [← compare_alike halike]
    exact hresult

theorem Compares.alike (h : ∀ rule' ∈ rules', ∃ rule ∈ rules, rule.Alike rule')
    (hall : Compares prepared rules) : Compares prepared rules' := by
  intro rule' hrule' line hline
  obtain ⟨rule, hrule, halike⟩ := h rule' hrule'
  rw [← subjects_alike halike] at hline
  rw [← compare_alike halike]
  exact hall rule hrule line hline

-- ==== the decision

section Build

variable {riskDecisionId commandReceiptId : Nat} {requestIdentity requestSha256 : String}
  {decidedAt : Int} {reasonIdFactory : RiskRulePlan → Option PreparedRiskLine → Nat}
  {d : RiskDecisionAuthority} {ordinal : Nat}

theorem mem_evaluations : (rule, line) ∈ evaluations prepared policy
    ↔ rule ∈ policy.rules ∧ line ∈ subjects prepared rule := by
  unfold evaluations
  simp only [mem_flatMap, mem_map, Prod.mk.injEq]
  constructor
  · rintro ⟨_, hrule, _, hline, rfl, rfl⟩
    exact ⟨hrule, hline⟩
  · rintro ⟨hrule, hline⟩
    exact ⟨rule, hrule, line, hline, rfl, rfl⟩

theorem mem_visits {l : List (RiskRulePlan × Option PreparedRiskLine)}
    {start : Nat} {x : RiskRulePlan × Option PreparedRiskLine} :
    (∃ ordinal, (x, ordinal) ∈ l.zipIdx start) ↔ x ∈ l := by
  constructor
  · rintro ⟨ordinal, h⟩
    exact fst_mem_of_mem_zipIdx h
  · intro h
    have hmap : x ∈ (l.zipIdx start).map Prod.fst := by
      rw [zipIdx_map_fst]
      exact h
    obtain ⟨⟨_, ordinal⟩, hmem, rfl⟩ := mem_map.mp hmap
    exact ⟨ordinal, hmem⟩

theorem reasonOf_ok {reason : RiskReasonPlan} :
    reasonOf prepared reasonIdFactory ((rule, line), ordinal) = .ok reason →
      compare rule (observed prepared rule line) = .ok reason.result ∧ reason.rule = rule := by
  unfold reasonOf
  simp only [bind_ok, pure_ok]
  rintro ⟨result, hresult, rfl⟩
  exact ⟨hresult, rfl⟩

theorem reasonOf_exists {result : RiskRuleResult}
    (h : compare rule (observed prepared rule line) = .ok result) :
    ∃ reason, reasonOf prepared reasonIdFactory ((rule, line), ordinal) = .ok reason := by
  unfold reasonOf
  simp only [bind_ok, pure_ok]
  exact ⟨_, result, h, rfl⟩

variable (h : buildRiskDecision riskDecisionId prepared policy requestIdentity requestSha256
    commandReceiptId decidedAt reasonIdFactory = .ok d)

include h in
/-- The outcomes of a decision are those of the rules. -/
theorem build_outcomes : Compares prepared policy.rules ∧ ∃ results,
      (∀ item, item ∈ results ↔ Outcome prepared policy.rules item)
        ∧ d.status = decisionStatus prepared.proposalStatus results := by
  unfold buildRiskDecision at h
  simp only [bind_ok, pure_ok] at h
  obtain ⟨_, -, reasons, hreasons, rfl⟩ := h
  have hall : ∀ rule ∈ policy.rules, ∀ line ∈ subjects prepared rule, ∃ reason ∈ reasons,
        compare rule (observed prepared rule line) = .ok reason.result ∧ reason.rule = rule := by
    intro rule hrule line hline
    obtain ⟨ordinal, hvisit⟩ := mem_visits.mpr (mem_evaluations.mpr ⟨hrule, hline⟩)
    obtain ⟨reason, hreason, hok⟩ := mapM_ok_mem hreasons _ hvisit
    exact ⟨reason, hreason, reasonOf_ok hok⟩
  constructor
  · intro rule hrule line hline
    obtain ⟨reason, -, hresult, -⟩ := hall rule hrule line hline
    exact ⟨reason.result, hresult⟩
  · refine ⟨_, ?_, rfl⟩
    rintro ⟨result, severity⟩
    rw [mem_map]
    constructor
    · rintro ⟨reason, hreason, heq⟩
      cases heq
      obtain ⟨⟨⟨rule, line⟩, ordinal⟩, hvisit, hok⟩ := mem_mapM_ok hreasons reason hreason
      obtain ⟨hrule, hline⟩ := mem_evaluations.mp (mem_visits.mp ⟨_, hvisit⟩)
      obtain ⟨hresult, hown⟩ := reasonOf_ok hok
      refine ⟨rule, hrule, ?_, line, hline, hresult⟩
      rw [hown]
    · rintro ⟨rule, hrule, hseverity, line, hline, hresult⟩
      obtain ⟨reason, hreason, hown, hrule'⟩ := hall rule hrule line hline
      refine ⟨reason, hreason, ?_⟩
      rw [hown] at hresult
      cases hresult
      rw [hrule']
      exact congrArg _ hseverity

include h in
theorem build_sha : isSha256 requestSha256 = true := by
  unfold buildRiskDecision sha at h
  simp only [bind_ok, require_ok] at h
  obtain ⟨_, ⟨_, hsha, -⟩, -⟩ := h
  exact hsha

/-- With a hash of the request, a decision is made when every rule
compares. -/
theorem build_exists (hsha : isSha256 requestSha256 = true) :
    (∃ d, buildRiskDecision riskDecisionId prepared policy requestIdentity
      requestSha256 commandReceiptId decidedAt reasonIdFactory = .ok d)
      ↔ Compares prepared policy.rules := by
  constructor
  · rintro ⟨d, hd⟩
    exact (build_outcomes hd).1
  · intro hall
    have hvisits : ∀ visit ∈ (evaluations prepared policy).zipIdx 1,
        ∃ reason, reasonOf prepared reasonIdFactory visit = .ok reason := by
      rintro ⟨⟨rule, line⟩, ordinal⟩ hvisit
      obtain ⟨hrule, hline⟩ := mem_evaluations.mp (mem_visits.mp ⟨_, hvisit⟩)
      obtain ⟨_, hresult⟩ := hall rule hrule line hline
      exact reasonOf_exists hresult
    obtain ⟨reasons, hreasons, -⟩ := mapM_ok_length hvisits
    unfold buildRiskDecision
    simp only [bind_ok, pure_ok]
    refine ⟨_, requestSha256, ?_, reasons, hreasons, rfl⟩
    unfold sha
    rw [require_true hsha]
    rfl

end Build

-- ==== the status

section Status

variable {proposalStatus : PortfolioProposalStatus}
  {results results' : List (RiskRuleResult × RiskSeverity)}

def Rejects (results : List (RiskRuleResult × RiskSeverity)) : Prop :=
  ∃ item ∈ results, item.1 = .fail ∧ item.2 = .reject

/-- Some rule failed or is unknown. -/
def Doubts (results : List (RiskRuleResult × RiskSeverity)) : Prop :=
  ∃ item ∈ results, item.1 = .unknown ∨ item.1 = .fail

instance : Decidable (Rejects results) :=
  inferInstanceAs (Decidable (∃ item ∈ results, _))

instance : Decidable (Doubts results) :=
  inferInstanceAs (Decidable (∃ item ∈ results, _))

theorem Rejects.doubts (h : Rejects results) : Doubts results := by
  obtain ⟨item, hitem, hfail, -⟩ := h
  exact ⟨item, hitem, .inr hfail⟩

theorem decisionStatus_eq : decisionStatus proposalStatus results
    = if Rejects results then .rejected
      else if Doubts results then .unknown
      else if proposalStatus = .noAction then .noAction
      else if proposalStatus = .notEstimable then .unknown
      else .authorized := by
  apply if_congr (by simp [Rejects]) rfl
  apply if_congr (by simp [Doubts]) rfl
  rfl

theorem decisionStatus_subset (h : results ⊆ results') :
    decisionStatus proposalStatus results' = decisionStatus proposalStatus results
      ∨ (decisionStatus proposalStatus results).rank
        < (decisionStatus proposalStatus results').rank := by
  have hrejects : Rejects results → Rejects results' :=
    fun ⟨item, hitem, hfail⟩ => ⟨item, h hitem, hfail⟩
  have hdoubts : Doubts results → Doubts results' :=
    fun ⟨item, hitem, hfail⟩ => ⟨item, h hitem, hfail⟩
  rw [decisionStatus_eq, decisionStatus_eq]
  by_cases hr : Rejects results
  · left
    rw [if_pos hr, if_pos (hrejects hr)]
  · by_cases hr' : Rejects results'
    · right
      rw [if_neg hr, if_pos hr']
      cases proposalStatus <;> split <;> decide
    · rw [if_neg hr, if_neg hr']
      by_cases hd : Doubts results
      · left
        rw [if_pos hd, if_pos (hdoubts hd)]
      · rw [if_neg hd]
        by_cases hd' : Doubts results'
        · rw [if_pos hd']
          cases proposalStatus with
          | proposed => exact .inr (by decide)
          | noAction => exact .inr (by decide)
          | notEstimable => exact .inl rfl
        · rw [if_neg hd']
          exact .inl rfl

theorem decisionStatus_congr (h : ∀ item, item ∈ results ↔ item ∈ results') :
    decisionStatus proposalStatus results = decisionStatus proposalStatus results' := by
  have hrejects : Rejects results ↔ Rejects results' :=
    exists_congr fun item => and_congr_left' (h item)
  have hdoubts : Doubts results ↔ Doubts results' :=
    exists_congr fun item => and_congr_left' (h item)
  rw [decisionStatus_eq, decisionStatus_eq, if_congr hrejects rfl rfl, if_congr hdoubts rfl rfl]

theorem decisionStatus_authorized : decisionStatus proposalStatus results = .authorized
      ↔ proposalStatus = .proposed ∧ ¬ Doubts results := by
  rw [decisionStatus_eq]
  by_cases hd : Doubts results
  · by_cases hr : Rejects results
    · simp [hr, hd]
    · simp [hr, hd]
  · have hr : ¬ Rejects results := fun hr => hd hr.doubts
    cases proposalStatus <;> simp [hr, hd]

end Status

-- ==== the law

theorem compare_applies {value : Option Scalar} {result : RiskRuleResult}
    (h : compare rule value = .ok result)
    (hdoubt : ¬ (result = .unknown ∨ result = .fail)) : result = .pass := by
  cases value with
  | none =>
    simp only [compare, pure_ok] at h
    subst h
    exfalso
    apply hdoubt
    by_cases haction : rule.missingAction = .fail
    · right
      rw [if_pos haction]
    · left
      rw [if_neg haction]
  | some value =>
    simp only [compare, bind_ok, pure_ok] at h
    obtain ⟨passed, -, rfl⟩ := h
    cases passed with
    | true => rfl
    | false => exact absurd (.inr rfl) hdoubt

theorem exists_alike {rules rules' rules'' : List RiskRulePlan} (hperm : rules'.Perm rules)
    (halike : List.Forall₂ RiskRulePlan.Alike rules' rules'') :
    (∀ rule ∈ rules, ∃ rule' ∈ rules'', rule.Alike rule')
      ∧ ∀ rule' ∈ rules'', ∃ rule ∈ rules, rule.Alike rule' := by
  constructor
  · intro rule hrule
    exact forall₂_left halike (hperm.mem_iff.mpr hrule)
  · intro rule' hrule'
    obtain ⟨rule, hrule, hown⟩ := forall₂_right halike hrule'
    exact ⟨rule, hperm.mem_iff.mp hrule, hown⟩

theorem RiskRulePlan.Alike.symm {a b : RiskRulePlan} (h : a.Alike b) :
    b.Alike a :=
  ⟨h.scope.symm, h.subject.symm, h.operator.symm, h.thresholds.symm,
    h.severity.symm, h.missingAction.symm⟩

section Law

variable (riskDecisionId : Nat) (prepared : PreparedRiskInputs) (policy : RiskPolicyPlan)
  (requestIdentity requestSha256 : String) (commandReceiptId : Nat) (decidedAt : Int)
  (reasonIdFactory : RiskRulePlan → Option PreparedRiskLine → Nat)

/-- A decision that is made authorizes exactly a proposal that is proposed
and passes every rule on every subject; it does not depend on the order
of the rules; and a rule more leaves it or raises it. -/
theorem risk_decision_fails_closed (d : RiskDecisionAuthority)
    (hd : buildRiskDecision riskDecisionId prepared policy requestIdentity
      requestSha256 commandReceiptId decidedAt reasonIdFactory = .ok d) :
    (d.status = .authorized ↔ prepared.proposalStatus = .proposed
      ∧ ∀ rule ∈ policy.rules, ∀ line ∈ subjects prepared rule,
        compare rule (observed prepared rule line) = .ok .pass)
      ∧ (∀ (policy' : RiskPolicyPlan) (rules : List RiskRulePlan), rules.Perm policy.rules →
        List.Forall₂ RiskRulePlan.Alike rules policy'.rules →
        ∃ d', buildRiskDecision riskDecisionId prepared policy'
          requestIdentity requestSha256 commandReceiptId decidedAt
            reasonIdFactory = .ok d' ∧ d'.status = d.status)
      ∧ ∀ (policy' : RiskPolicyPlan) (rule : RiskRulePlan)
        (rules : List RiskRulePlan) (d' : RiskDecisionAuthority),
        rules.Perm (rule :: policy.rules) →
        List.Forall₂ RiskRulePlan.Alike rules policy'.rules →
        buildRiskDecision riskDecisionId prepared policy' requestIdentity
          requestSha256 commandReceiptId decidedAt reasonIdFactory = .ok d' →
        d'.status = d.status ∨ d.status.rank < d'.status.rank := by
  obtain ⟨hcompares, results, hresults, hstatus⟩ := build_outcomes hd
  refine ⟨?_, ?_, ?_⟩
  · rw [hstatus, decisionStatus_authorized]
    apply and_congr_right'
    constructor
    · intro hnone rule hrule line hline
      obtain ⟨result, hresult⟩ := hcompares rule hrule line hline
      have hpass := compare_applies hresult fun hdoubt =>
        hnone ⟨(result, rule.severity), (hresults _).mpr
          ⟨rule, hrule, rfl, line, hline, hresult⟩, hdoubt⟩
      rw [hresult, hpass]
    · rintro hall ⟨⟨result, severity⟩, hitem, hdoubt⟩
      obtain ⟨rule, hrule, -, line, hline, hresult⟩ := (hresults _).mp hitem
      rw [hall rule hrule line hline] at hresult
      cases hresult
      simp at hdoubt
  · intro policy' rules hperm halike
    obtain ⟨hleft, hright⟩ := exists_alike hperm halike
    obtain ⟨d', hd'⟩ := (build_exists (build_sha hd)).mpr (hcompares.alike hright)
    obtain ⟨-, results', hresults', hstatus'⟩ := build_outcomes hd'
    refine ⟨d', hd', ?_⟩
    rw [hstatus, hstatus']
    apply decisionStatus_congr
    intro item
    rw [hresults, hresults']
    constructor
    · apply Outcome.alike
      intro rule' hrule'
      obtain ⟨rule, hrule, hown⟩ := hright rule' hrule'
      exact ⟨rule, hrule, hown.symm⟩
    · exact Outcome.alike hleft
  · intro policy' rule rules d' hperm halike hd'
    obtain ⟨hleft, -⟩ := exists_alike hperm halike
    obtain ⟨-, results', hresults', hstatus'⟩ := build_outcomes hd'
    rw [hstatus, hstatus']
    apply decisionStatus_subset
    intro item hitem
    apply (hresults' item).mpr
    apply Outcome.alike _ ((hresults item).mp hitem)
    exact fun rule hrule => hleft rule (mem_cons_of_mem _ hrule)

end Law

-- ==== the samples

def capRule (ordinal : Nat) (ruleCode : String) (scope : RiskRuleScope) (subject : RiskSubject)
    (cap : ℚ) (hidentity : isCode ruleCode ∧ 1 ≤ ordinal)
    (hline : scope = .line → subject = .singleLineWeight)
    (hglobal : scope = .global → subject ≠ .singleLineWeight) :
    RiskRulePlan where
  riskRuleId := ordinal
  riskPolicyId := 1
  ordinal := ordinal
  ruleCode := ruleCode
  scope := scope
  subject := subject
  operator := .atMost
  thresholds := ⟨some (.finite cap), none, none, none⟩
  severity := .reject
  missingAction := .fail
  identity := hidentity
  one_threshold := rfl
  finite_threshold := by
    intro value hvalue
    cases hvalue
    exact ⟨cap, rfl⟩
  line_subject := hline
  global_subject := hglobal

def grossCap : RiskRulePlan :=
  capRule 1 "gross_weight_cap" .global .grossWeight (8 / 10) (by decide) (by decide) (by decide)

def sampleRiskPolicy : RiskPolicyPlan where
  riskPolicyId := 1
  policyCode := "research.decision"
  version := 1
  supersedesPolicyId := none
  rules :=
    [grossCap,
     capRule 2 "single_weight_cap" .line .singleLineWeight (6 / 10)
      (by decide) (by decide) (by decide)]
  identity := by decide
  supersession := by decide
  contiguous := by simp [grossCap, capRule]; rfl
  own_rules := by simp [grossCap, capRule]
  codes := by simp [grossCap, capRule]

def sampleRiskInputs : PreparedRiskInputs where
  portfolioProposalId := 1
  proposalStatus := .proposed
  lineCount := 2
  includedCount := 2
  notEstimableCount := 0
  grossWeight := .finite (8 / 10)
  netWeight := .finite (8 / 10)
  cashWeight := .finite (2 / 10)
  qualificationCount := 1
  lines := [⟨11, 1, .included, .finite (4 / 10)⟩, ⟨12, 2, .included, .finite (4 / 10)⟩]
  complete := by decide

theorem compare_capRule {ordinal : Nat} {ruleCode : String} {scope : RiskRuleScope}
    {subject : RiskSubject} {cap weight : ℚ} {hidentity : isCode ruleCode ∧ 1 ≤ ordinal}
    {hline : scope = .line → subject = .singleLineWeight}
    {hglobal : scope = .global → subject ≠ .singleLineWeight} (h : weight ≤ cap) :
    compare (capRule ordinal ruleCode scope subject cap hidentity hline hglobal)
      (some (.decimal (.finite weight))) = .ok .pass := by
  have hordered : atMost (.decimal (.finite weight)) (.decimal (.finite cap)) = .ok true := by
    simp [atMost, ordered, Scalar.operand, h]
  show (do
    let passed ← atMost (.decimal (.finite weight)) (.decimal (.finite cap))
    return if passed then RiskRuleResult.pass else .fail) = _
  rw [hordered]
  rfl

/-- The sample is decided: it is authorized. -/
theorem risk_decision_fails_closed_sample : ∃ d,
    buildRiskDecision 1 sampleRiskInputs sampleRiskPolicy "request-1"
        (String.ofList (List.replicate 64 'a')) 1 1
        (fun rule _ => rule.ordinal) = .ok d
      ∧ d.status = .authorized := by
  have hpass : ∀ rule ∈ sampleRiskPolicy.rules, ∀ line ∈ subjects sampleRiskInputs rule,
        compare rule (observed sampleRiskInputs rule line) = .ok .pass := by
    intro rule hrule line hline
    simp only [sampleRiskPolicy, mem_cons, not_mem_nil, or_false] at hrule
    rcases hrule with rfl | rfl
    · exact compare_capRule le_rfl
    · simp only [subjects, capRule, sampleRiskInputs, map_cons,
        map_nil, if_true, mem_cons, not_mem_nil,
        or_false] at hline
      rcases hline with rfl | rfl
      · exact compare_capRule (by norm_num)
      · exact compare_capRule (by norm_num)
  have hsha : isSha256 (String.ofList (List.replicate 64 'a')) = true := by decide
  obtain ⟨d, hd⟩ := (build_exists hsha).mpr
    fun rule hrule line hline => ⟨_, hpass rule hrule line hline⟩
  exact ⟨d, hd, (risk_decision_fails_closed _ _ _ _ _ _ _ _ d hd).1.mpr ⟨rfl, hpass⟩⟩

end MarketRegimeAlpha.DecisionSupport
