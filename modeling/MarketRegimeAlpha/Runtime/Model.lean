/-
Run, Step and Attempt lifecycles, retry policies, and the Step DAG a Run
is planned with.

The states and their frozen edge tables come first, then the plan data
with its checks as fields — a `RetryPolicy` or a `StepSpec` that breaks
one cannot be built — and last `validateStepDag`, the chain of checks a
plan passes before it is scheduled.
-/
import MarketRegimeAlpha.Lib.Checked
import MarketRegimeAlpha.Lib.Dfs
import Mathlib.Data.List.Dedup
import Mathlib.Data.List.Sort

namespace MarketRegimeAlpha.Runtime

open Lib

-- ==== the states

inductive RunState where
  | queued
  | running
  | waiting
  | succeeded
  | blocked
  | failed
  | cancelled
  deriving DecidableEq

inductive StepState where
  | pending
  | ready
  | claimed
  | running
  | waiting
  | succeeded
  | blocked
  | failed
  | cancelled
  | skipped
  deriving DecidableEq

inductive AttemptState where
  | claimed
  | running
  | succeeded
  | failedRetryable
  | failedTerminal
  | abandoned
  | reconciliationRequired
  deriving DecidableEq

inductive ExternalEffectClass where
  | none
  | pureRead
  | contentPut
  | idempotentRemoteCommand
  | nonIdempotentRemoteCommand
  | observationOnly
  deriving DecidableEq

inductive DependencyKind where
  | requiredSuccess
  | terminal
  deriving DecidableEq

def RunState.value : RunState → String
  | .queued => "QUEUED"
  | .running => "RUNNING"
  | .waiting => "WAITING"
  | .succeeded => "SUCCEEDED"
  | .blocked => "BLOCKED"
  | .failed => "FAILED"
  | .cancelled => "CANCELLED"

def StepState.value : StepState → String
  | .pending => "PENDING"
  | .ready => "READY"
  | .claimed => "CLAIMED"
  | .running => "RUNNING"
  | .waiting => "WAITING"
  | .succeeded => "SUCCEEDED"
  | .blocked => "BLOCKED"
  | .failed => "FAILED"
  | .cancelled => "CANCELLED"
  | .skipped => "SKIPPED"

def AttemptState.value : AttemptState → String
  | .claimed => "CLAIMED"
  | .running => "RUNNING"
  | .succeeded => "SUCCEEDED"
  | .failedRetryable => "FAILED_RETRYABLE"
  | .failedTerminal => "FAILED_TERMINAL"
  | .abandoned => "ABANDONED"
  | .reconciliationRequired => "RECONCILIATION_REQUIRED"

-- ==== the frozen edges

def runEdges : List (RunState × RunState) :=
  [(.queued, .running), (.queued, .cancelled), (.running, .waiting), (.running, .succeeded),
    (.running, .blocked),
    (.running, .failed),
    (.running, .cancelled),
    (.waiting, .running),
    (.waiting, .blocked),
    (.waiting, .failed),
    (.waiting, .cancelled)]

/-- `_STEP_EDGES`: the listed edges, and every live state may be
cancelled. -/
def stepEdges : List (StepState × StepState) :=
  [(.pending, .ready), (.pending, .skipped), (.ready, .claimed), (.claimed, .running),
    (.claimed, .ready),
    (.running, .ready),
    (.running, .waiting),
    (.running, .succeeded),
    (.running, .blocked),
    (.running, .failed),
    (.waiting, .ready)]
  ++ [StepState.pending, .ready, .claimed, .running, .waiting].map fun state => (state, .cancelled)

def attemptEdges : List (AttemptState × AttemptState) :=
  [(.claimed, .running), (.claimed, .abandoned), (.running, .succeeded),
    (.running, .failedRetryable),
    (.running, .failedTerminal),
    (.running, .abandoned),
    (.running, .reconciliationRequired)]

/-- `_ensure_transition`, for the three kinds of state alike. -/
def ensureTransition {S : Type} [DecidableEq S] (kind : String)
    (value : S → String) (edges : List (S × S)) (source target : S) :
    Except Raised Unit :=
  Lib.require ((source, target) ∈ edges) <| .valueError <|
    kind ++ " transition " ++ value source ++ " -> " ++ value target ++ " is not allowed"

def ensureRunTransition (source target : RunState) : Except Raised Unit :=
  ensureTransition "Run" RunState.value runEdges source target

def ensureStepTransition (source target : StepState) :
    Except Raised Unit :=
  ensureTransition "Step" StepState.value stepEdges source target

def ensureAttemptTransition (source target : AttemptState) :
    Except Raised Unit :=
  ensureTransition "Attempt" AttemptState.value attemptEdges source target

-- ==== the plan data

/-- `_CODE`: an upper-case letter, then at most 99 upper-case letters,
digits or underscores. -/
def isCode (s : String) : Bool :=
  match s.toList with
  | [] => false
  | c :: cs => c.isUpper && cs.length ≤ 99 && cs.all fun d => d.isUpper || d.isDigit || d == '_'

/-- `_STEP_KEY`: a lower-case letter, then at most 99 lower-case letters,
digits, underscores or hyphens. -/
def isStepKey (s : String) : Bool :=
  match s.toList with
  | [] => false
  | c :: cs =>
    c.isLower && cs.length ≤ 99 && cs.all fun d => d.isLower || d.isDigit || d == '_' || d == '-'

def day : Int := 86400000000

/-- How often a Step may be attempted, how long it rests between
attempts, and which error codes may be retried. Durations are in
microseconds. -/
structure RetryPolicy where
  maxAttempts : Nat
  backoff : List Int
  retryableCodes : List String
  deadline : Option Int
  maxAttempts_range : 1 ≤ maxAttempts ∧ maxAttempts ≤ 64
  backoff_length : backoff.length ≤ maxAttempts - 1
  backoff_range : ∀ delay ∈ backoff, 0 ≤ delay ∧ delay ≤ day
  codes_closed : ∀ code ∈ retryableCodes, isCode code

def RetryPolicy.once : RetryPolicy := ⟨1, [], [], none, by decide, by decide, nofun, nofun⟩

/-- The checks of `RetryPolicy.__post_init__`, in order. -/
def RetryPolicy.new (maxAttempts : Nat) (backoff : List Int)
    (retryableCodes : List String) (deadline : Option Int) :
    Except Raised RetryPolicy :=
  if h₁ : 1 ≤ maxAttempts ∧ maxAttempts ≤ 64 then
    if h₂ : backoff.length ≤ maxAttempts - 1 then
      if h₃ : ∀ delay ∈ backoff, 0 ≤ delay ∧ delay ≤ day then
        if h₄ : ∀ code ∈ retryableCodes, isCode code then
          .ok ⟨maxAttempts, backoff, retryableCodes, deadline, h₁, h₂, h₃, h₄⟩
        else .error (.valueError "retryable codes must use the closed code format")
      else .error (.valueError "backoff delays must be between zero and one day")
    else .error (.valueError "backoff cannot contain more entries than retries")
  else .error (.valueError "max_attempts must be between 1 and 64")

/-- The rest after attempt `attemptNo`. -/
def RetryPolicy.delayAfter (policy : RetryPolicy) (attemptNo : Nat) :
    Except Raised Int := do
  Lib.require (0 < attemptNo) (.valueError "attempt_no must be positive")
  return policy.backoff.getD (attemptNo - 1) 0

structure StepSpec where
  (stepKey stepKind : String)
  ordinal : Nat
  required : Bool
  retryPolicy : RetryPolicy
  externalEffectClass : ExternalEffectClass
  stepKey_format : isStepKey stepKey
  stepKind_format : isCode stepKind

structure StepDependency where
  (predecessorKey successorKey : String)
  dependencyKind : DependencyKind
  irreflexive : predecessorKey ≠ successorKey

-- ==== the plan's checks

variable (steps : List StepSpec) (dependencies : List StepDependency)

/-- The plan has an edge of this kind between these keys. -/
def hasEdge (predecessorKey successorKey : String) (kind : DependencyKind) :
    Prop :=
  ∃ d ∈ dependencies, d.predecessorKey = predecessorKey
    ∧ d.successorKey = successorKey ∧ d.dependencyKind = kind

instance (p s : String) (kind : DependencyKind) : Decidable (hasEdge dependencies p s kind) :=
  inferInstanceAs (Decidable (∃ d ∈ dependencies, _))

/-- `graph[key]`: the set of successors of a key. -/
def successors (key : String) : List String :=
  ((dependencies.filter (·.predecessorKey == key)).map
    (·.successorKey)).dedup

def chainKinds : List String := ["BUILD_CANDIDATE_SET", "OPEN_DECISION_RUN", "ASSESS_CONTEXT"]

/-- `_validate_mandatory_decision_chain`: a plan with one of the three
chain kinds has each exactly once, in order, and directly linked. -/
def validateMandatoryDecisionChain : Except Raised Unit :=
  if steps.all fun step => !chainKinds.contains step.stepKind then .ok ()
  else
    match steps.filter (·.stepKind == "BUILD_CANDIDATE_SET"),
        steps.filter (·.stepKind == "OPEN_DECISION_RUN"),
        steps.filter (·.stepKind == "ASSESS_CONTEXT") with
    | [build], [opened], [context] => do
        Lib.require (build.required ∧ opened.required ∧ context.required) (.valueError
            "the Candidate-to-Context decision chain is mandatory")
        Lib.require (build.ordinal < opened.ordinal ∧ opened.ordinal < context.ordinal)
          (.valueError ("Decision chain ordinals must be "
            ++ "BUILD_CANDIDATE_SET before OPEN_DECISION_RUN before "
            ++ "ASSESS_CONTEXT"))
        Lib.require (hasEdge dependencies build.stepKey opened.stepKey .requiredSuccess
            ∧ hasEdge dependencies opened.stepKey context.stepKey .requiredSuccess)
          (.valueError ("the mandatory Decision chain requires direct "
            ++ "REQUIRED_SUCCESS edges"))
        Lib.require (¬ ∃ d ∈ dependencies, d.predecessorKey = build.stepKey
            ∧ d.successorKey = context.stepKey)
          (.valueError "BUILD_CANDIDATE_SET cannot bypass OPEN_DECISION_RUN")
    | _, _, _ => .error (.valueError
        ("BUILD_CANDIDATE_SET, OPEN_DECISION_RUN, and ASSESS_CONTEXT "
          ++ "must each occur exactly once"))

/-- The formal proof profiles: a key prefix and the kinds it stands
for. -/
def profiles : List (String × List String) :=
  [("formal-decision-", ["CAPTURE", "NORMALIZE_PIT", "FREEZE_UNIVERSE",
        "ASSESS_ELIGIBILITY", "REGISTER_DATASET", "BUILD_CANDIDATE_SET",
        "OPEN_DECISION_RUN", "ASSESS_CONTEXT", "SIGNAL_AND_FORECAST",
        "DECIDE_AND_RISK"]),
    ("formal-due-", ["SETTLE_OUTCOME", "ACQUIRE_OUTCOME_INPUTS", "EVALUATE",
        "RECORD_EVIDENCE", "ASSESS_RESEARCH", "QUALIFY"])]

/-- `str.startswith`. -/
def startsWith (s pre : String) : Bool := pre.toList.isPrefixOf s.toList

/-- `_validate_formal_profile`: a plan with a formal key is exactly its
profile, in order, with every direct edge and no bypass. -/
def validateFormalProfile : Except Raised Unit :=
  match profiles.filter fun profile =>
      steps.any fun step => startsWith step.stepKey profile.1 with
  | [] => .ok ()
  | [(_, expectedKinds)] => do
      let ordered := steps.insertionSort fun a b => a.ordinal ≤ b.ordinal
      let keys := ordered.map (·.stepKey)
      Lib.require (steps.length = expectedKinds.length) (.valueError
        "formal Runtime profile has an incomplete step roster")
      Lib.require (ordered.all (·.required)) (.valueError
        "formal Runtime profile steps are mandatory")
      Lib.require (ordered.map (·.ordinal) = List.range' 1 ordered.length) (.valueError
        "formal Runtime profile ordinals must be contiguous")
      Lib.require (ordered.map (·.stepKind) = expectedKinds) (.valueError
        "formal Runtime profile has an incomplete step roster")
      Lib.require (∀ edge ∈ ordered.zip ordered.tail,
          hasEdge dependencies edge.1.stepKey edge.2.stepKey .requiredSuccess) (.valueError
        ("formal Runtime profile requires every direct " ++ "REQUIRED_SUCCESS edge"))
      Lib.require (¬ ∃ d ∈ dependencies, keys.idxOf d.predecessorKey + 1
          < keys.idxOf d.successorKey) (.valueError
        "formal Runtime profile cannot contain a bypass edge")
  | _ => .error (.valueError
      "a Runtime Run cannot mix formal proof profiles")

/-- The recursive cycle check of `validate_step_dag`. -/
def visitAll : Except Raised Unit :=
  match Dfs.check (successors dependencies) (steps.map (·.stepKey)) with
  | .ok _ => .ok ()
  | .error _ => .error (.valueError
      "Step dependency graph contains a cycle")

def validateStepDag : Except Raised Unit := do
  let keys := steps.map (·.stepKey)
  Lib.require (steps ≠ []) (.valueError "a Run requires at least one Step")
  Lib.require (¬ ∃ step ∈ steps,
      step.externalEffectClass = .nonIdempotentRemoteCommand) (.valueError
    ("NON_IDEMPOTENT_REMOTE_COMMAND is forbidden from unattended " ++ "Runtime"))
  Lib.require keys.Nodup (.valueError "Step keys must be unique")
  Lib.require (steps.map (·.ordinal)).Nodup (.valueError "Step ordinals must be unique")
  Lib.require (∀ d ∈ dependencies, d.predecessorKey ∈ keys ∧ d.successorKey ∈ keys) (.valueError
    "Step dependency references an unknown Step")
  validateMandatoryDecisionChain steps dependencies
  validateFormalProfile steps dependencies
  visitAll steps dependencies

-- ==== what an accepted plan is

/-- What the rest of the development uses of an accepted plan: it is not
empty, its keys are distinct, its edges join known keys, and a rank goes
up along every edge. -/
structure Plan : Prop where
  nonempty : steps ≠ []
  keys_nodup : (steps.map (·.stepKey)).Nodup
  known : ∀ d ∈ dependencies, d.predecessorKey ∈ steps.map (·.stepKey)
    ∧ d.successorKey ∈ steps.map (·.stepKey)
  ranked : ∃ rank : String → Nat, ∀ d ∈ dependencies, rank d.predecessorKey < rank d.successorKey

variable {steps dependencies}

theorem mem_successors {key s : String} : s ∈ successors dependencies key
      ↔ ∃ d ∈ dependencies, d.predecessorKey = key ∧ d.successorKey = s := by
  unfold successors
  simp [List.mem_dedup, and_assoc]

/-- The cycle check ranks the keys; its rank falls along the edges, and
is bounded, so the rank counted from the top rises. -/
theorem visitAll_ranked (h : visitAll steps dependencies = .ok ())
    (hknown : ∀ d ∈ dependencies, d.predecessorKey ∈ steps.map (·.stepKey)
      ∧ d.successorKey ∈ steps.map (·.stepKey)) :
    ∃ rank : String → Nat, ∀ d ∈ dependencies, rank d.predecessorKey < rank d.successorKey := by
  unfold visitAll at h
  split at h
  · next v hv =>
      refine ⟨fun key => v.length - Dfs.rank v key, fun d hd => ?_⟩
      have hlt := Dfs.check_rank hv d.predecessorKey (hknown d hd).1
        d.successorKey (mem_successors.mpr ⟨d, hd, rfl, rfl⟩)
      have hle := Dfs.rank_le v d.predecessorKey
      show v.length - Dfs.rank v d.predecessorKey < v.length - Dfs.rank v d.successorKey
      omega
  · cases h

/-- What `validate_step_dag` accepts is a plan. -/
theorem validateStepDag_plan (h : validateStepDag steps dependencies = .ok ()) :
    Plan steps dependencies := by
  simp only [validateStepDag, bind_ok, require_ok] at h
  obtain ⟨_, hne, _, -, _, hkeys, _, -, _, hknown, _, -, _, -, hvisit⟩ := h
  exact ⟨hne, hkeys, hknown, visitAll_ranked hvisit hknown⟩

end MarketRegimeAlpha.Runtime
