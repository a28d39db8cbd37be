/-
The Risk decision of a Portfolio proposal: the rules of a policy, each
evaluated on what it observes, and the status they come to.

# What stands for what

An observed value or a threshold is a `Scalar`: a `Decimal`, an `int`, a
`str` or a `bool`, compared as Python compares them. The two nested loops
over the rules and their subjects are one pass over the pairs that they
visit. A dataclass that the caller constructs is a structure whose proof
fields are the checks of its `__post_init__`. Content hashes, Artifact
bindings, provenance, the unit of a threshold and the one authority scope
are read by no check of this code and are left out.
-/
import MarketRegimeAlpha.DecisionSupport.Portfolio
import MarketRegimeAlpha.Lib.Comparison

namespace MarketRegimeAlpha.DecisionSupport

open Lib

-- ==== the rules

inductive RiskRuleScope where
  | global
  | line
  deriving DecidableEq

inductive RiskSubject where
  | proposalStatus
  | lineCount
  | grossWeight
  | netWeight
  | singleLineWeight
  | cashWeight
  | estimability
  | qualificationPresence
  deriving DecidableEq

inductive RiskOperator where
  | equals
  | atMost
  | atLeast
  deriving DecidableEq

inductive RiskSeverity where
  | reject
  | unknown
  deriving DecidableEq

inductive RiskMissingAction where
  | fail
  | unknown
  deriving DecidableEq

inductive RiskRuleResult where
  | pass
  | fail
  | unknown
  | notApplicable
  deriving DecidableEq

def RiskRuleResult.value : RiskRuleResult → String
  | .pass => "PASS"
  | .fail => "FAIL"
  | .unknown => "UNKNOWN"
  | .notApplicable => "NOT_APPLICABLE"

inductive RiskDecisionStatus where
  | authorized
  | rejected
  | unknown
  | noAction
  deriving DecidableEq

def PortfolioProposalStatus.value : PortfolioProposalStatus → String
  | .proposed => "PROPOSED"
  | .noAction => "NO_ACTION"
  | .notEstimable => "NOT_ESTIMABLE"

structure RiskThresholds where
  decimalThreshold : Option DecimalValue
  integerThreshold : Option Int
  textThreshold : Option String
  booleanThreshold : Option Bool

/-- The thresholds that are not `None`, in the order of the tuple that
`_compare` takes the first of. -/
def RiskThresholds.present (t : RiskThresholds) : List Scalar :=
  t.decimalThreshold.toList.map .decimal ++ t.integerThreshold.toList.map
    .integer ++ t.textThreshold.toList.map .text
    ++ t.booleanThreshold.toList.map .boolean

structure RiskRulePlan where
  (riskRuleId riskPolicyId ordinal : Nat)
  ruleCode : String
  scope : RiskRuleScope
  subject : RiskSubject
  operator : RiskOperator
  thresholds : RiskThresholds
  severity : RiskSeverity
  missingAction : RiskMissingAction
  identity : isCode ruleCode ∧ 1 ≤ ordinal
  one_threshold : thresholds.present.length = 1
  finite_threshold : ∀ value, thresholds.decimalThreshold = some value →
    ∃ number, value = .finite number
  line_subject : scope = .line → subject = .singleLineWeight
  global_subject : scope = .global → subject ≠ .singleLineWeight

structure RiskPolicyPlan where
  riskPolicyId : Nat
  policyCode : String
  version : Int
  supersedesPolicyId : Option Nat
  rules : List RiskRulePlan
  identity : isCode policyCode ∧ 1 ≤ version
  supersession : version = 1 ↔ supersedesPolicyId = none
  contiguous : rules ≠ [] ∧ rules.map (·.ordinal) = List.range' 1 rules.length
  own_rules : ∀ rule ∈ rules, rule.riskPolicyId = riskPolicyId
  codes : (rules.map (·.ruleCode)).Nodup

-- ==== the inputs

structure PreparedRiskLine where
  (portfolioLineId ordinal : Nat)
  status : PortfolioLineStatus
  proposedWeight : DecimalValue

structure PreparedRiskInputs where
  portfolioProposalId : Nat
  proposalStatus : PortfolioProposalStatus
  (lineCount includedCount notEstimableCount : Int)
  (grossWeight netWeight cashWeight : DecimalValue)
  qualificationCount : Int
  lines : List PreparedRiskLine
  complete : lineCount = lines.length ∧ lines.map (·.ordinal) = List.range' 1 lines.length

-- ==== the decision

structure RiskReasonPlan where
  (riskReasonId ordinal : Nat)
  rule : RiskRulePlan
  portfolioLineId : Option Nat
  result : RiskRuleResult
  observedDecimal : Option DecimalValue
  observedInteger : Option Int
  observedText : Option String
  observedBoolean : Option Bool
  reasonCode : String

structure RiskDecisionAuthority where
  riskDecisionId : Nat
  prepared : PreparedRiskInputs
  policy : RiskPolicyPlan
  status : RiskDecisionStatus
  reasons : List RiskReasonPlan
  (requestIdentity requestSha256 : String)
  commandReceiptId : Nat
  decidedAt : Int

variable (prepared : PreparedRiskInputs)

def observed (rule : RiskRulePlan) (line : Option PreparedRiskLine) : Option Scalar :=
  match rule.subject with
  | .proposalStatus => some (.text prepared.proposalStatus.value)
  | .lineCount => some (.integer prepared.includedCount)
  | .grossWeight => some (.decimal prepared.grossWeight)
  | .netWeight => some (.decimal prepared.netWeight)
  | .cashWeight => some (.decimal prepared.cashWeight)
  | .estimability => some (.boolean (prepared.notEstimableCount = 0))
  | .qualificationPresence => some (.boolean (0 < prepared.qualificationCount))
  | .singleLineWeight => line.map fun line => .decimal line.proposedWeight

variable (rule : RiskRulePlan)

/-- `threshold`: the first that is not `None`. -/
def RiskRulePlan.threshold : Scalar :=
  rule.thresholds.present.head (by
    intro hnil
    have hone := rule.one_threshold
    rw [hnil] at hone
    cases hone)

def RiskOperator.holds : RiskOperator → Scalar → Scalar → Except Raised Bool
  | .equals => equal
  | .atMost => Lib.atMost
  | .atLeast => Lib.atLeast

def compare : Option Scalar → Except Raised RiskRuleResult
  | none => return if rule.missingAction = .fail then .fail else .unknown
  | some observed => do
      let passed ← rule.operator.holds observed rule.threshold
      return if passed then .pass else .fail

def subjects (rule : RiskRulePlan) : List (Option PreparedRiskLine) :=
  if rule.scope = .line then prepared.lines.map some else [none]

/-- The rules with their subjects, as the loops visit them. -/
def evaluations (policy : RiskPolicyPlan) : List (RiskRulePlan × Option PreparedRiskLine) :=
  policy.rules.flatMap fun rule => (subjects prepared rule).map (rule, ·)

/-- The body of the loops. -/
def reasonOf (reasonIdFactory : RiskRulePlan → Option PreparedRiskLine → Nat)
    (visit : (RiskRulePlan × Option PreparedRiskLine) × Nat) :
    Except Raised RiskReasonPlan := do
  let ((rule, line), ordinal) := visit
  let observed := observed prepared rule line
  let result ← compare rule observed
  return {
    riskReasonId := reasonIdFactory rule line
    ordinal := ordinal
    rule := rule
    portfolioLineId := line.map (·.portfolioLineId)
    result := result
    observedDecimal := match observed with
      | some (.decimal value) => some value
      | _ => none
    observedInteger := match observed with
      | some (.integer value) => some value
      | _ => none
    observedText := match observed with
      | some (.text value) => some value
      | _ => none
    observedBoolean := match observed with
      | some (.boolean value) => some value
      | _ => none
    reasonCode := "RULE_" ++ result.value }

/-- `status`, of the results and the severities of their rules. -/
def decisionStatus (proposalStatus : PortfolioProposalStatus)
    (results : List (RiskRuleResult × RiskSeverity)) : RiskDecisionStatus :=
  if results.any fun item => item.1 = .fail ∧ item.2 = .reject then .rejected
  else if results.any fun item => item.1 = .unknown ∨ item.1 = .fail then
    .unknown
  else if proposalStatus = .noAction then .noAction
  else if proposalStatus = .notEstimable then .unknown
  else .authorized

def buildRiskDecision (riskDecisionId : Nat) (prepared : PreparedRiskInputs)
    (policy : RiskPolicyPlan) (requestIdentity requestSha256 : String) (commandReceiptId : Nat)
    (decidedAt : Int) (reasonIdFactory : RiskRulePlan → Option PreparedRiskLine → Nat) :
    Except Raised RiskDecisionAuthority := do
  let requestSha256 ← sha requestSha256 "Risk request hash"
  let reasons ← ((evaluations prepared policy).zipIdx 1).mapM (reasonOf prepared reasonIdFactory)
  return {
    riskDecisionId := riskDecisionId
    prepared := prepared
    policy := policy
    status := decisionStatus prepared.proposalStatus
      (reasons.map fun item => (item.result, item.rule.severity))
    reasons := reasons
    requestIdentity := requestIdentity
    requestSha256 := requestSha256
    commandReceiptId := commandReceiptId
    decidedAt := decidedAt }

end MarketRegimeAlpha.DecisionSupport
