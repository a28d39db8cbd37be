/-
The runtime repository: every operation as one transaction on the Run
aggregate, statement by statement, and the event system the operations
and the clock make.

# How a statement is translated

A `SELECT` is `Tx.select`, an `UPDATE … RETURNING` is `Tx.update` on its
table with the statement's own `WHERE` and `SET`, and `.fetchone()` on
what it returns is `head?`. An operation is atomic, so
`clock_timestamp()` is one reading of the clock; between operations the
clock moves by `tick`. The receipt columns, the error columns and the
`started_at`/`finished_at` columns are written by the source and read by
none of the operations, so they are not kept.

`admitted` is the verdict of `admit_runtime_attempt`, the process
admission that the three claiming operations consult first.
-/
import MarketRegimeAlpha.Lib.Reach
import MarketRegimeAlpha.Runtime.Tables

namespace MarketRegimeAlpha.Runtime

open Lib

abbrev RuntimeTx := Tx Write RuntimeError Db

structure AttemptClaim where
  (attemptId runId stepId : Nat)
  stepKey : String
  (attemptNo fenceToken : Nat)
  leaseOwner : String
  leaseUntil : Int

structure RecoveryDecision where
  (attemptId runId stepId fenceToken : Nat)
  outcome : String
  (attemptVersion stepVersion runVersion : Nat)

-- ==== the helpers

def ExternalEffectClass.remote (effect : ExternalEffectClass) : Bool :=
  effect == .idempotentRemoteCommand
    || effect == .nonIdempotentRemoteCommand

/-- `int(duration.total_seconds() * 1_000)`, of microseconds. -/
def wholeMilliseconds (duration : Int) : Int := duration.tdiv 1000

def leaseMilliseconds (duration : Int) : RuntimeTx Int := do
  let milliseconds := wholeMilliseconds duration
  Tx.require (0 < duration ∧ 0 < milliseconds) .leaseTooShort
  Tx.require (duration ≤ day) .leaseTooLong
  return milliseconds

variable (admitted : Bool)

def admitRuntimeAttempt : RuntimeTx Unit := Tx.require admitted .admissionConflict

variable (db : Db)

/-- `max(attempt_no)` over the attempts of a step, 0 when there are
none. -/
def Db.priorAttempts (stepId : Nat) : Nat :=
  ((db.attemptsOf stepId).map (·.attemptNo)).foldr max 0

def Db.hasLiveStep : Bool := db.steps.any (·.state.live)

/-- The dependency does not yet let its successor go, in view of its
predecessor's state. -/
def DependencyKind.blocks (kind : DependencyKind) (state : StepState) :
    Bool :=
  match kind with
  | .requiredSuccess => !(state == .succeeded || state == .skipped)
  | .terminal => !state.terminal

def Db.hasUnmetDependency (stepId : Nat) : Bool :=
  db.dependencies.any fun dependency =>
    dependency.successorStepId == stepId && db.steps.any fun predecessor =>
        predecessor.stepId == dependency.predecessorStepId
          && dependency.dependencyKind.blocks predecessor.state

def Db.hasDependency (stepId : Nat) : Bool :=
  db.dependencies.any (·.successorStepId == stepId)

def Db.findAttempt (attemptId : Nat) : Option (StepRow × AttemptRow) :=
  match db.attempts.find? (·.attemptId == attemptId) with
  | none => none
  | some attempt =>
    match db.steps.find? (·.stepId == attempt.stepId) with
    | none => none
    | some step => some (step, attempt)

variable (attempt : AttemptRow)

/-- The `INSERT` of an attempt, with the constraints its values can
break. -/
def insertAttempt : RuntimeTx Unit := do
  let attempts ← Tx.select Db.attempts
  Tx.require (attempt.leaseOwner ≠ "") (.checkViolation "runtime_attempt_owner_ck")
  Tx.require (∀ other ∈ attempts, other.attemptId ≠ attempt.attemptId)
    (.uniqueViolation "runtime_attempt_pkey")
  Tx.require (∀ other ∈ attempts, ¬ (other.stepId = attempt.stepId
      ∧ other.attemptNo = attempt.attemptNo))
    (.uniqueViolation "runtime_attempt_number_uk")
  Tx.require (∀ other ∈ attempts, ¬ (other.stepId = attempt.stepId
      ∧ other.fenceToken = attempt.fenceToken))
    (.uniqueViolation "runtime_attempt_fence_uk")
  Tx.require (∀ other ∈ attempts, ¬ (other.stepId = attempt.stepId ∧ other.state.live))
    (.uniqueViolation "runtime_attempt_one_live_idx")
  Tx.insert fun db => { db with attempts := db.attempts ++ [attempt] }

-- ==== the SET clauses

def makeReady (clock : Int) (step : StepRow) : StepRow :=
  { step with
    state := .ready
    readyAt := some clock
    version := step.version + 1 }

def handTo (step : StepRow) : StepRow :=
  { step with
    state := .claimed
    currentFence := attempt.fenceToken
    currentAttemptId := some attempt.attemptId
    version := step.version + 1 }

variable (step : StepRow)

/-- A step whose attempt has started. -/
def markRunning : StepRow :=
  { step with
    state := .running
    version := step.version + 1 }

/-- A step taken from its attempt: back to the queue at `readyAt`, or
out of it. -/
def takeBack (target : StepState) (readyAt : Int) (step : StepRow) :
    StepRow :=
  { step with
    state := target
    currentAttemptId := none
    readyAt := if target = .ready then some readyAt else step.readyAt
    version := step.version + 1 }

def withState (target : AttemptState) (attempt : AttemptRow) :
    AttemptRow :=
  { attempt with state := target }

/-- An attempt whose lease was extended now; never by less than a
microsecond. -/
def beat (clock leaseMs : Int) (attempt : AttemptRow) : AttemptRow :=
  { attempt with
    lastHeartbeatAt := clock
    leaseUntil := max (attempt.leaseUntil + 1) (clock + leaseMs * 1000) }

-- ==== the statements

variable (runId : Nat)

/-- `UPDATE runtime_run SET state, version WHERE run_id AND state`. -/
def updateRun (source : Option RunState) (target : RunState) : RuntimeTx (List RunRow) :=
  Tx.update runTable (fun run => run.runId == runId && source.all (run.state == ·))
    (fun run => { run with state := target, version := run.version + 1 })

/-- `UPDATE runtime_attempt SET state WHERE`. -/
def updateAttempt (where_ : AttemptRow → Bool) (target : AttemptState) :
    RuntimeTx (List AttemptRow) :=
  Tx.update attemptTable where_ (withState target)

def expectedAttemptState (required : Option AttemptState) (state : AttemptState) : Bool :=
  match required with
  | some required => state == required
  | none => state.live

variable (claim : AttemptClaim)

/-- `_lock_live_claim`: the rows the claim holds, if it still does. -/
def lockLiveClaim (requiredAttemptState : Option AttemptState) :
    RuntimeTx (StepRow × AttemptRow) := do
  let db ← Tx.get
  match db.findAttempt claim.attemptId with
  | none => Tx.raise (.notLiveFence claim.attemptId)
  | some (step, attempt) => do
      Tx.require (db.run.runId = claim.runId ∧ db.run.state = .running ∧ step.stepId = claim.stepId
          ∧ expectedAttemptState requiredAttemptState attempt.state
          ∧ attempt.fenceToken = claim.fenceToken
          ∧ attempt.leaseOwner = claim.leaseOwner)
        (.notLiveFence claim.attemptId)
      -- `UUID(str(None))` raises before the comparison
      Tx.require step.currentAttemptId.isSome .malformedUuid
      Tx.require (step.currentAttemptId = some claim.attemptId
          ∧ step.currentFence = claim.fenceToken
          ∧ step.stepKey = claim.stepKey)
        (.notLiveFence claim.attemptId)
      Tx.require (db.clock < attempt.leaseUntil) (.leaseExpired claim.attemptId)
      return (step, attempt)

/-- The `WHERE` that pins a step to an attempt and a fence. -/
def heldAt (stepId attemptId fenceToken : Nat) (step : StepRow) : Bool :=
  step.stepId == stepId && step.currentAttemptId == some attemptId
    && step.currentFence == fenceToken

/-- The step a claim holds. -/
def heldBy : StepRow → Bool :=
  heldAt claim.stepId claim.attemptId claim.fenceToken

def releaseReadySuccessors : RuntimeTx Unit := do
  let db ← Tx.get
  let _ ← Tx.update stepTable (fun step => step.state == .pending && db.hasDependency step.stepId
      && !db.hasUnmetDependency step.stepId)
    (makeReady db.clock)
  return ()

def finishRunIfComplete : RuntimeTx Nat := do
  let db ← Tx.get
  Tx.require (db.run.runId = runId) (.runNotFound runId)
  if db.steps.all (·.state.terminal) && db.steps.all (fun step => !step.required
        || step.state == .succeeded || step.state == .skipped) then
    let finished ← updateRun runId (some .running) .succeeded
    match finished.head? with
    | none => Tx.raise (.runNotFinalized runId)
    | some run => return run.version
  else
    return db.run.version

-- ==== the operations

def startRun : RuntimeTx Nat := do
  let db ← Tx.get
  Tx.require (db.run.runId = runId) (.runNotFound runId)
  Tx.require (db.run.state = .queued) (.runNotQueued runId db.run.state)
  let updated ← updateRun runId (some .queued) .running
  match updated.head? with
  | none => Tx.raise (.startRace runId)
  | some run => do
      let _ ← Tx.update stepTable (fun step => step.state == .pending
          && !db.hasDependency step.stepId)
        (makeReady db.clock)
      return run.version

/-- The `WHERE` of `claim_next`. -/
def Db.claimable (runId stepId : Option Nat) (step : StepRow) : Bool :=
  db.run.state == .running && runId.all (db.run.runId == ·) && stepId.all (step.stepId == ·)
    && step.state == .ready
    && step.readyAt.any (· ≤ db.clock)
    && step.deadlineAt.all (db.clock < ·)
    && !db.hasLiveStep
    && !db.hasUnmetDependency step.stepId

/-- `ORDER BY step.ordinal, step.step_id LIMIT 1` of the claimable
steps. -/
def Db.nextClaimable (runId stepId : Option Nat) : Option StepRow :=
  ((db.steps.filter (db.claimable runId stepId)).insertionSort fun a b =>
    a.ordinal < b.ordinal ∨ (a.ordinal = b.ordinal ∧ a.stepId ≤ b.stepId)).head?

def newAttempt (step : StepRow) (attemptId : Nat)
    (leaseOwner : String) (lease : Int) : AttemptRow where
  attemptId := attemptId
  stepId := step.stepId
  attemptNo := db.priorAttempts step.stepId + 1
  fenceToken := step.currentFence + 1
  leaseOwner := leaseOwner
  leaseAcquiredAt := db.clock
  externalEffectClass := step.externalEffectClass
  leaseUntil := db.clock + lease
  lastHeartbeatAt := db.clock
  state := .claimed

/-- The `UPDATE` that hands a ready step to a fresh attempt. -/
def claimStep : RuntimeTx (List StepRow) :=
  Tx.update stepTable (fun step => step.stepId == attempt.stepId && step.state == .ready)
    (handTo attempt)

def claimNext (attemptId : Nat) (runId : Option Nat)
    (workerId : String) (leaseDuration : Int) (stepId : Option Nat) :
    RuntimeTx (Option AttemptClaim) := do
  let leaseMs ← leaseMilliseconds leaseDuration
  admitRuntimeAttempt admitted
  let db ← Tx.get
  match db.nextClaimable runId stepId with
  | none => return none
  | some step => do
      let attempt := newAttempt db step attemptId workerId (leaseMs * 1000)
      Tx.require (attempt.attemptNo ≤ step.maxAttempts) (.readyExhausted step.stepId)
      insertAttempt attempt
      let updated ← claimStep attempt
      match updated.head? with
      | none => Tx.raise (.claimRace step.stepId)
      | some _ => return some {
          attemptId := attemptId
          runId := db.run.runId
          stepId := step.stepId
          stepKey := step.stepKey
          attemptNo := attempt.attemptNo
          fenceToken := attempt.fenceToken
          leaseOwner := workerId
          leaseUntil := attempt.leaseUntil }

def startAttempt : RuntimeTx Nat := do
  let _ ← lockLiveClaim claim (some .claimed)
  let db ← Tx.get
  let attempts ← updateAttempt (fun attempt =>
    attempt.attemptId == claim.attemptId && attempt.state == .claimed
      && db.clock < attempt.leaseUntil) .running
  let steps ← Tx.update stepTable (fun step => heldBy claim step && step.state == .claimed)
    markRunning
  match attempts.head?, steps.head? with
  | some _, some step => return step.version
  | _, _ => Tx.raise (.notOwner claim.attemptId)

def heartbeatAttempt (leaseDuration : Int) : RuntimeTx Int := do
  let leaseMs ← leaseMilliseconds leaseDuration
  let _ ← lockLiveClaim claim none
  let db ← Tx.get
  let attempts ← Tx.update attemptTable (fun attempt => attempt.attemptId == claim.attemptId
      && attempt.state.live && db.clock < attempt.leaseUntil)
    (beat db.clock leaseMs)
  match attempts.head? with
  | none => Tx.raise (.leaseNotLive claim.attemptId)
  | some attempt => return attempt.leaseUntil

def succeedAttempt : RuntimeTx (Nat × Nat) := do
  let _ ← lockLiveClaim claim (some .running)
  let db ← Tx.get
  let attempts ← updateAttempt (fun attempt =>
    attempt.attemptId == claim.attemptId && attempt.state == .running
      && db.clock < attempt.leaseUntil) .succeeded
  let steps ← Tx.update stepTable (fun step => heldBy claim step && step.state == .running)
    (takeBack .succeeded db.clock)
  match attempts.head?, steps.head? with
  | some _, some step => do
      releaseReadySuccessors
      let runVersion ← finishRunIfComplete claim.runId
      return (step.version, runVersion)
  | _, _ => Tx.raise (.cannotFinalize claim.attemptId)

/-- Where a settled attempt leaves itself, its step, and the outcome it
is reported under. -/
structure Verdict where
  attemptState : AttemptState
  stepState : StepState
  outcome : String

/-- The branches of `fail_attempt`. -/
def failVerdict (attempt : AttemptRow) (errorCode : String) : Verdict :=
  if attempt.externalEffectClass.remote then
    ⟨.reconciliationRequired, .waiting, "RECONCILIATION_REQUIRED"⟩
  else if errorCode ∈ step.retryableErrorCodes ∧ attempt.attemptNo < step.maxAttempts then
    ⟨.failedRetryable, .ready, "RETRY_READY"⟩
  else
    ⟨.failedTerminal, .failed, "FAILED"⟩

/-- The branches of `recover_expired_attempt`. -/
def recoverVerdict (attempt : AttemptRow) : Verdict :=
  if attempt.state = .running ∧ attempt.externalEffectClass.remote then
    ⟨.reconciliationRequired, .waiting, "RECONCILIATION_REQUIRED"⟩
  else if attempt.attemptNo < step.maxAttempts then
    ⟨.abandoned, .ready, "RETRY_READY"⟩
  else
    ⟨.abandoned, .failed, "FAILED"⟩

def settleRun (stepState : StepState) : RuntimeTx (List RunRow) :=
  match stepState with
  | .waiting => updateRun runId (some .running) .waiting
  | .failed => updateRun runId (some .running) .failed
  | _ => Tx.select fun db => if db.run.runId = runId then [db.run] else []

def failAttempt (errorCode : String) : RuntimeTx (String × Nat × Nat) := do
  let (step, attempt) ← lockLiveClaim claim (some .running)
  let db ← Tx.get
  let verdict := failVerdict step attempt errorCode
  let _ ← updateAttempt (·.attemptId == claim.attemptId) verdict.attemptState
  let delay := step.retryBackoffMs.getD (attempt.attemptNo - 1) 0
  let steps ← Tx.update stepTable (heldBy claim)
    (takeBack verdict.stepState (db.clock + delay * 1000))
  match steps.head? with
  | none => Tx.raise (.cannotFail claim.attemptId)
  | some step => do
      let runs ← settleRun claim.runId verdict.stepState
      match runs.head? with
      | none => Tx.raise (.failureNotAccepted claim.runId)
      | some run => return (verdict.outcome, step.version, run.version)

def recoverExpiredAttempt (attemptId : Nat) : RuntimeTx (Option RecoveryDecision) := do
  let db ← Tx.get
  match db.findAttempt attemptId with
  | none => return none
  | some (step, attempt) => do
      admitRuntimeAttempt admitted
      if db.run.state ≠ .running ∨ ¬ attempt.state.live ∨ step.currentAttemptId ≠ some attemptId
          ∨ step.currentFence ≠ attempt.fenceToken
          ∨ ¬ attempt.leaseUntil ≤ db.clock then
        return none
      else
        let verdict := recoverVerdict step attempt
        let _ ← updateAttempt (·.attemptId == attemptId) verdict.attemptState
        let steps ← Tx.update stepTable (·.stepId == step.stepId)
          (takeBack verdict.stepState db.clock)
        let runs ← settleRun db.run.runId verdict.stepState
        match steps.head?, runs.head? with
        | some step, some run => return some {
            attemptId := attemptId
            runId := db.run.runId
            stepId := step.stepId
            fenceToken := attempt.fenceToken
            outcome := verdict.outcome
            attemptVersion := attempt.attemptNo
            stepVersion := step.version
            runVersion := run.version }
        | _, _ => Tx.raise .recoveryLost

def Db.deadlineExpired (step : StepRow) : Bool :=
  db.run.state == .running && (step.state == .pending || step.state == .ready)
    && step.deadlineAt.any (· ≤ db.clock)
    && !db.hasLiveStep

def readyForDeadline (step : StepRow) : RuntimeTx Unit :=
  if step.state = .pending then do
    let madeReady ← Tx.update stepTable
      (fun other => other.stepId == step.stepId && other.state == .pending)
      (makeReady db.clock)
    Tx.require (madeReady ≠ []) .deadlineNotReadied
  else
    pure ()

/-- `expire_step_deadline`: a step whose deadline passed is claimed,
started and failed in one transaction. -/
def expireStepDeadline (stepId attemptId : Nat)
    (leaseOwner : String) : RuntimeTx (Option RecoveryDecision) := do
  admitRuntimeAttempt admitted
  let db ← Tx.get
  match db.steps.find? fun step =>
      step.stepId == stepId && db.deadlineExpired step with
  | none => return none
  | some step => do
      let attempt := newAttempt db step attemptId leaseOwner 1000000
      Tx.require (attempt.attemptNo ≤ step.maxAttempts) (.deadlineExhausted stepId)
      readyForDeadline db step
      insertAttempt attempt
      let claimed ← claimStep attempt
      Tx.require (claimed ≠ []) .deadlineNotClaimed
      let _ ← updateAttempt (fun attempt =>
        attempt.attemptId == attemptId && attempt.state == .claimed)
        .running
      let _ ← Tx.update stepTable (fun step => heldAt stepId attemptId attempt.fenceToken step
          && step.state == .claimed) markRunning
      let _ ← updateAttempt (fun attempt =>
        attempt.attemptId == attemptId && attempt.state == .running)
        .failedTerminal
      let failed ← Tx.update stepTable (fun step => heldAt stepId attemptId attempt.fenceToken step
          && step.state == .running)
        (takeBack .failed db.clock)
      let runs ← updateRun db.run.runId (some .running) .failed
      match failed.head?, runs.head? with
      | some step, some run => return some {
          attemptId := attemptId
          runId := db.run.runId
          stepId := stepId
          fenceToken := attempt.fenceToken
          outcome := "FAILED"
          attemptVersion := attempt.attemptNo
          stepVersion := step.version
          runVersion := run.version }
      | _, _ => Tx.raise .deadlineLost

def resumeWaitingStep (runId stepId : Nat) (resolutionCode : String) : RuntimeTx (Nat × Nat) := do
  let db ← Tx.get
  match db.steps.find? (·.stepId == stepId) with
  | none => Tx.raise .runOrStepNotFound
  | some step => do
      Tx.require (db.run.runId = runId) .runOrStepNotFound
      Tx.require (db.run.state = .waiting ∧ step.state = .waiting)
        (.resumeNotWaiting db.run.state step.state)
      let steps ← Tx.update stepTable (·.stepId == stepId) (makeReady db.clock)
      let runs ← updateRun runId none .running
      match steps.head?, runs.head? with
      | some step, some run => return (step.version, run.version)
      | _, _ => Tx.raise (.resumeLost resolutionCode)

end MarketRegimeAlpha.Runtime
