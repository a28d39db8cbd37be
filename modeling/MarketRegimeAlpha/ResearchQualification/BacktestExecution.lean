/-
The reconciling executor of a backtest: what it takes for the next actions, and
the loop that executes them.

# How it is translated

A UUID is its number, whose order is that of its text. The expected actions of a
run are the list the planner compiles, in the order of their ordinals; their
content hashes and their scope ids nobody reads here are left out.

# The ports

The world is whatever the observation port, the execution port, the blockers and
the clock together are: a state that answers what an action is observed as, and
that moves when an action is executed, the blockers are asked or the clock is
read (`Ports`). An observation of some actions has one entry for each of them.

The run keeps the events of its two ports, the latest first: what it observed and
what it executed.
-/
import MarketRegimeAlpha.Lib.Checked
import MarketRegimeAlpha.Lib.Dict
import MarketRegimeAlpha.Lib.OrderStat

namespace MarketRegimeAlpha.ResearchQualification.BacktestExecution

open Lib

-- ==== the vocabulary

inductive BacktestActionKind where
  | materializeDataset
  | generateDecisionSupport
  | settleOutcome
  | completeFoldEvaluation
  | trainModel
  | completeAggregateEvaluation
  deriving DecidableEq

inductive BacktestObservedState where
  | absent
  | matchedIncomplete
  | matchedComplete
  | failedRetryable
  | failedTerminal
  | mismatch
  deriving DecidableEq

inductive BacktestExecutionState where
  | planned
  | running
  | completed
  | failed
  | integrityError
  deriving DecidableEq

inductive BacktestResearchState where
  | estimable
  | notEstimable
  | notApplicable
  deriving DecidableEq

inductive BacktestNextOperation where
  | execute
  | recover
  | retry
  deriving DecidableEq

structure BacktestExpectedAction where
  actionId : Nat
  kind : BacktestActionKind
  foldId : Option Nat
  dependencyActionIds : List Nat

structure BacktestActionObservation where
  actionId : Nat
  state : BacktestObservedState
  researchState : BacktestResearchState

structure BacktestReadyAction where
  action : BacktestExpectedAction
  operation : BacktestNextOperation

structure BacktestFoldLifecycle where
  foldId : Nat
  executionState : BacktestExecutionState
  researchState : BacktestResearchState

structure BacktestExecutionPlan where
  exploratoryBacktestRunId : Nat
  expectedActions : List BacktestExpectedAction
  readyActions : List BacktestReadyAction
  foldLifecycles : List BacktestFoldLifecycle
  executionState : BacktestExecutionState
  researchState : BacktestResearchState
  integrityMismatchActionIds : List Nat
  executionBlockers : List String

structure BacktestExecutionBudget where
  maximumActions : Nat
  positive : 1 ≤ maximumActions ∧ maximumActions ≤ 100000

structure FrozenBacktestRun where
  exploratoryBacktestRunId : Nat
  folds : List Nat

-- ==== reconciliation

/-- `{observation.action_id: observation}`. -/
def byId (observations : List BacktestActionObservation) : List (Nat × BacktestActionObservation) :=
  dictOf (observations.map fun observation => (observation.actionId, observation))

def stateOf (actionId : Nat) (observations : List (Nat × BacktestActionObservation)) :
    BacktestObservedState :=
  match observations.lookup actionId with
  | none => .absent
  | some observation => observation.state

def executionStateOf (states : List BacktestObservedState) (integrityError : Bool) :
    BacktestExecutionState :=
  if integrityError ∨ .mismatch ∈ states then .integrityError
  else if states ≠ [] ∧ ∀ state ∈ states, state = .matchedComplete then .completed
  else if .failedRetryable ∈ states ∨ .failedTerminal ∈ states then .failed
  else if .matchedIncomplete ∈ states ∨ .matchedComplete ∈ states then .running
  else .planned

def researchStateOf (states : List BacktestResearchState) : BacktestResearchState :=
  if .estimable ∈ states then .estimable
  else if .notEstimable ∈ states then .notEstimable
  else .notApplicable

def nextOperation : BacktestObservedState → Option BacktestNextOperation
  | .absent => some .execute
  | .matchedIncomplete => some .recover
  | .failedRetryable => some .retry
  | _ => none

def readyAction (observations : List (Nat × BacktestActionObservation))
    (action : BacktestExpectedAction) : Option BacktestReadyAction :=
  let state := stateOf action.actionId observations
  if state = .matchedComplete then none
  else if ∀ dependency ∈ action.dependencyActionIds,
      stateOf dependency observations = .matchedComplete then
    (nextOperation state).map fun operation => ⟨action, operation⟩
  else none

variable (actions : List BacktestExpectedAction)

def readyOf (observations : List (Nat × BacktestActionObservation)) : List BacktestReadyAction :=
  actions.filterMap (readyAction observations)

def evaluationResearch (kinds : List BacktestActionKind) (actions : List BacktestExpectedAction)
    (observations : List (Nat × BacktestActionObservation)) :
    List BacktestResearchState :=
  actions.filterMap fun action =>
    if action.kind ∈ kinds then
      (observations.lookup action.actionId).bind fun observation =>
        if observation.state = .matchedComplete then some observation.researchState
        else none
    else none

def foldLifecycle (foldId : Nat) (actions : List BacktestExpectedAction)
    (observations : List (Nat × BacktestActionObservation)) : BacktestFoldLifecycle :=
  let foldActions := actions.filter (·.foldId = some foldId)
  let states := foldActions.map fun action => stateOf action.actionId observations
  { foldId
    executionState := executionStateOf states (.mismatch ∈ states)
    researchState := researchStateOf
      (evaluationResearch [.completeFoldEvaluation] foldActions observations) }

def mismatchIds (observations : List BacktestActionObservation) : List Nat :=
  let ids := observations.map (·.actionId)
  let observed := byId observations
  let duplicates := ids.filter fun actionId => 1 < ids.count actionId
  let unexpected := (keys observed).filter fun actionId => actionId ∉ actions.map (·.actionId)
  let mismatched := (observed.filter fun item => item.2.state = .mismatch).map (·.1)
  sortedDistinct (duplicates ++ unexpected ++ mismatched)

def reconcile (run : FrozenBacktestRun) (actions : List BacktestExpectedAction)
    (observations : List BacktestActionObservation) : BacktestExecutionPlan :=
  let observed := byId observations
  let mismatches := mismatchIds actions observations
  let integrityError : Bool := mismatches ≠ []
  let terminalFailure : Bool := (observed.map (·.2.state)).contains .failedTerminal
  let execution := executionStateOf
    (actions.map fun action => stateOf action.actionId observed) integrityError
  { exploratoryBacktestRunId := run.exploratoryBacktestRunId
    expectedActions := actions
    readyActions := if integrityError ∨ terminalFailure then []
      else readyOf actions observed
    foldLifecycles := run.folds.map fun foldId => foldLifecycle foldId actions observed
    executionState := if integrityError then .integrityError else execution
    researchState := researchStateOf (evaluationResearch
      [.completeFoldEvaluation, .completeAggregateEvaluation] actions observed)
    integrityMismatchActionIds := mismatches
    executionBlockers := [] }

-- ==== the ports

/-- The world of a run: what its ports answer, and where they move it. -/
structure Ports (W : Type) where
  state : W → Nat → BacktestObservedState
  researchState : W → Nat → BacktestResearchState
  execute : W → BacktestExpectedAction → BacktestNextOperation → W × Option String
  blockers : W → W × List String
  late : W → W × Bool

def Ports.observe {W : Type} (ports : Ports W) (world : W)
    (scope : List BacktestExpectedAction) : List BacktestActionObservation :=
  scope.map fun action =>
    ⟨action.actionId, ports.state world action.actionId, ports.researchState world action.actionId⟩

inductive Event where
  | observed (observations : List BacktestActionObservation)
  | executed (action : BacktestExpectedAction) (operation : BacktestNextOperation)

/-- How a run ends without a plan. -/
inductive Fault where
  | integrity (message : String)
  | raised (error : String)

/-- A run under way: its world, its events and its transitions. -/
structure Progress (W : Type) where
  world : W
  events : List Event
  transitions : Nat

section Driving

variable {W : Type} (ports : Ports W) (run : FrozenBacktestRun)
  (expected : List BacktestExpectedAction) (budget : Option BacktestExecutionBudget)

variable (progress : Progress W)

/-- `observe`, which leaves what it saw among the events. -/
def Progress.observe (scope : List BacktestExpectedAction) :
    List BacktestActionObservation × Progress W :=
  let observed := ports.observe progress.world scope
  (observed, { progress with events := .observed observed :: progress.events })

def maxTransitions : Nat := expected.length * 4 + 1

/-- How the work on a ready action goes on: the run ends, it plans again from new
observations, or it takes the next ready action. -/
inductive Turn where
  | returned (plan : BacktestExecutionPlan)
  | failed (fault : Fault)
  | onward (observed : List BacktestActionObservation)
  | next

variable (plan : BacktestExecutionPlan)

def mismatchMessage : String :=
  "Backtest reconciliation produced INTEGRITY_ERROR: "
    ++ ",".intercalate (plan.integrityMismatchActionIds.map uuidText)

/-- Whether the budget is spent, and the world after its clock was read. -/
def spent : Bool × Progress W :=
  match budget with
  | none => (false, progress)
  | some limit =>
    if limit.maximumActions ≤ progress.transitions then (true, progress)
    else
      let (world, late) := ports.late progress.world
      (late, { progress with world })

/-- The end of a run whose budget is spent. -/
def drain (progress : Progress W) : Turn × Progress W :=
  let (checked, progress) := progress.observe ports expected
  let checkedPlan := reconcile run expected checked
  if checkedPlan.executionState = .integrityError then
    (.failed (.integrity "Backtest budget drain found an owner mismatch"), progress)
  else (.returned checkedPlan, progress)

/-- What follows on an execution whose observation did not move on: a valid lease
is kept, anything else is an error. -/
def unmoved (operation : BacktestNextOperation) (fullScope : Bool)
    (checkedPlan : BacktestExecutionPlan) (progress : Progress W) :
    Turn × Progress W :=
  if operation = .recover then
    let (checkedPlan, progress) :=
      if fullScope then (checkedPlan, progress)
      else
        let (checked, progress) := progress.observe ports expected
        (reconcile run expected checked, progress)
    if checkedPlan.executionState = .integrityError then
      (.failed (.integrity "Backtest recovery reconciliation produced INTEGRITY_ERROR"), progress)
    else (.returned checkedPlan, progress)
  else
    (.failed (.integrity "Backtest action made no canonical reconciliation progress"), progress)

/-- The check of an execution against the observations `before` the plan. -/
def afterExecution (before : List (Nat × BacktestActionObservation))
    (ready : BacktestReadyAction) (fullScope : Bool) (progress : Progress W) :
    Turn × Progress W :=
  let (checked, progress) := progress.observe ports (if fullScope then expected else [ready.action])
  let affected := checked.head?.map fun item => (item.actionId, item.state)
  if ¬ fullScope ∧ (checked.length ≠ 1 ∨ affected.map (·.1) ≠ some ready.action.actionId
      ∨ affected.map (·.2) = some .mismatch) then
    (.failed (.integrity ("Backtest affected-owner reconciliation differs "
      ++ "from its exact action")), progress)
  else if ¬ fullScope ∧ affected.map (·.2) = some .matchedComplete then
    (.next, progress)
  else
    let checkedPlan := reconcile run expected checked
    if checkedPlan.executionState = .integrityError then
      (.failed (.integrity (mismatchMessage checkedPlan)), progress)
    else
      let state := stateOf ready.action.actionId (byId checked)
      if state = stateOf ready.action.actionId before then
        unmoved ports run expected ready.operation fullScope checkedPlan progress
      else if fullScope then (.onward checked, progress)
      else if state ≠ .matchedComplete then
        let (observed, progress) := progress.observe ports expected
        (.onward observed, progress)
      else (.next, progress)

def workOn (before : List (Nat × BacktestActionObservation))
    (ready : BacktestReadyAction) (fullScope : Bool) (progress : Progress W) : Turn × Progress W :=
  let (world, blockers) := ports.blockers progress.world
  let progress := { progress with world }
  if blockers ≠ [] then
    (.returned { plan with readyActions := [], executionBlockers := blockers }, progress)
  else if maxTransitions expected ≤ progress.transitions then
    (.failed (.integrity "Backtest exceeded its bounded canonical transition budget"), progress)
  else
    let (stop, progress) := spent ports budget progress
    if stop then drain ports run expected progress
    else
      let (world, raised) := ports.execute progress.world ready.action ready.operation
      let progress : Progress W :=
        { world
          events := .executed ready.action ready.operation :: progress.events
          transitions := progress.transitions + 1 }
      match raised with
      | some error => (.failed (.raised error), progress)
      | none => afterExecution ports run expected before ready fullScope progress

/-- The ready actions of a plan. `observed` is the variable of that name. -/
def turn (plan : BacktestExecutionPlan) (before : List (Nat × BacktestActionObservation))
    (observed : List BacktestActionObservation) :
    List BacktestReadyAction → Progress W → Turn × Progress W
  | [], progress => (.onward observed, progress)
  | ready :: rest, progress =>
    match workOn ports run expected budget plan before ready (rest = []) progress with
    | (.next, progress) => turn plan before observed rest progress
    | result => result

/-- The loop over the plans, `fuel` times. -/
def driveLoop : Nat → List BacktestActionObservation → Progress W →
    Except Fault BacktestExecutionPlan × Progress W
  | 0, _, progress => (.error (.integrity
      "Backtest exceeded its bounded canonical transition budget"), progress)
  | fuel + 1, observed, progress =>
    let plan := reconcile run expected observed
    if plan.executionState = .integrityError then
      (.error (.integrity (mismatchMessage plan)), progress)
    else if plan.executionState = .completed then (.ok plan, progress)
    else if plan.executionState = .failed ∧ plan.readyActions = [] then
      (.ok plan, progress)
    else if plan.readyActions = [] then
      (.error (.integrity "Backtest has incomplete work but no dependency-ready action"), progress)
    else
      match turn ports run expected budget plan (byId observed) observed
          plan.readyActions progress with
      | (.returned plan, progress) => (.ok plan, progress)
      | (.failed fault, progress) => (.error fault, progress)
      | (.onward observed, progress) => driveLoop fuel observed progress
      -- the work on the last ready action never goes on to a next one
      | (.next, progress) => driveLoop fuel observed progress

def driveActions (requireUnstarted : Bool) (world : W) :
    Except Fault BacktestExecutionPlan × Progress W :=
  let (observed, progress) := Progress.observe ports ⟨world, [], 0⟩ expected
  let (world, blockers) := ports.blockers progress.world
  let progress := { progress with world }
  if blockers ≠ [] then
    (.ok { reconcile run expected observed with
      readyActions := [], executionBlockers := blockers }, progress)
  else if requireUnstarted ∧ ∃ item ∈ observed, item.state ≠ .absent then
    (.error (.integrity "backtest run requires no execution evidence; use resume"), progress)
  else
    driveLoop ports run expected budget (maxTransitions expected) observed progress

end Driving

end MarketRegimeAlpha.ResearchQualification.BacktestExecution
