/-
The runtime tables of one Run: the rows, the guard triggers that see
every update, the writes they journal and the errors an operation can
raise.

# What is kept

A `Db` is one Run aggregate: its run row, its steps, the dependencies
between them, and the attempts of all steps in creation order, with the
database clock in microseconds. Of the columns, the ones some modelled
query or guard reads are kept; the ones a guard calls immutable sit in
a parent record (`StepPlan`, `AttemptIdentity`), so that a guard
compares them as one value and an update that names none of them keeps
them by definition.

# The guards

`guardRuntimeRunUpdate`, `guardRuntimeStepUpdate` and
`guardRuntimeAttemptUpdate` are the `BEFORE UPDATE` triggers of the
baseline migration, branch by branch. Their edge lists are written out
in the migration a second time; that they are the lists of the domain
model is `runAllowed_eq`, `stepAllowed_eq` and `attemptAllowed_eq`.
-/
import MarketRegimeAlpha.Lib.Tx
import MarketRegimeAlpha.Runtime.Model

namespace MarketRegimeAlpha.Runtime

open Lib

-- ==== the rows

structure RunRow where
  runId : Nat
  state : RunState
  version : Nat
  deriving DecidableEq

structure StepPlan where
  stepId : Nat
  (stepKey stepKind : String)
  required : Bool
  (ordinal maxAttempts : Nat)
  retryBackoffMs : List Int
  retryableErrorCodes : List String
  deadlineAt : Option Int
  externalEffectClass : ExternalEffectClass
  deriving DecidableEq

structure StepRow extends StepPlan where
  state : StepState
  currentFence : Nat
  currentAttemptId : Option Nat
  readyAt : Option Int
  version : Nat
  deriving DecidableEq

structure AttemptIdentity where
  (attemptId stepId attemptNo fenceToken : Nat)
  leaseOwner : String
  leaseAcquiredAt : Int
  externalEffectClass : ExternalEffectClass
  deriving DecidableEq

structure AttemptRow extends AttemptIdentity where
  (leaseUntil lastHeartbeatAt : Int)
  state : AttemptState
  deriving DecidableEq

structure DependencyRow where
  (predecessorStepId successorStepId : Nat)
  dependencyKind : DependencyKind
  deriving DecidableEq

structure Db where
  clock : Int
  run : RunRow
  steps : List StepRow
  attempts : List AttemptRow
  dependencies : List DependencyRow
  deriving DecidableEq

def AttemptState.live (state : AttemptState) : Bool := state == .claimed || state == .running

def StepState.live (state : StepState) : Bool := state == .claimed || state == .running

def StepState.terminal (state : StepState) : Bool :=
  [.succeeded, .blocked, .failed, .cancelled, .skipped].contains state

def Db.attemptsOf (db : Db) (stepId : Nat) : List AttemptRow :=
  db.attempts.filter (·.stepId == stepId)

-- ==== writes and rejections

/-- One row update an operation issues, by its old and new state. -/
inductive Write where
  | run (source target : RunState)
  | step (stepId : Nat) (source target : StepState)
  | attempt (attemptId : Nat) (source target : AttemptState)
  deriving DecidableEq

inductive GuardRejection where
  | runEnvelope
  | runTransition (source target : RunState)
  | runVersion
  | stepPlan
  | stepTransition (source target : StepState)
  | stepVersion
  | claimFence
  | stepFence
  | attemptClaim
  | attemptTerminal
  | heartbeat
  | attemptTransition (source target : AttemptState)
  deriving DecidableEq

/-- The texts the triggers raise. -/
def GuardRejection.message : GuardRejection → String
  | .runEnvelope => "runtime_run immutable envelope changed"
  | .runTransition source target =>
    "invalid runtime_run transition " ++ source.value ++ " -> " ++ target.value
  | .runVersion => "runtime_run version must increment once"
  | .stepPlan => "runtime_step immutable plan changed"
  | .stepTransition source target =>
    "invalid runtime_step transition " ++ source.value ++ " -> " ++ target.value
  | .stepVersion => "runtime_step version must increment once"
  | .claimFence => "claim must increment fence and bind current Attempt"
  | .stepFence => "Step fence changes only during claim"
  | .attemptClaim => "runtime_attempt immutable claim changed"
  | .attemptTerminal => "terminal runtime_attempt is immutable"
  | .heartbeat => "heartbeat must extend a live lease"
  | .attemptTransition source target =>
    "invalid runtime_attempt transition " ++ source.value ++ " -> " ++ target.value

/-- Every error an operation of the repository can raise. -/
inductive RuntimeError where
  | invalidPlan (raised : Raised)
  | admissionConflict
  | leaseTooShort
  | leaseTooLong
  | scheduleNotFound (scheduleId : Nat)
  | scheduleMismatch
  | configNotFound (artifactId : Nat)
  | configMismatch
  | keyError (stepKey : String)
  | runNotFound (runId : Nat)
  | runNotQueued (runId : Nat) (found : RunState)
  | startRace (runId : Nat)
  | readyExhausted (stepId : Nat)
  | claimRace (stepId : Nat)
  | malformedUuid
  | notLiveFence (attemptId : Nat)
  | leaseExpired (attemptId : Nat)
  | notOwner (attemptId : Nat)
  | leaseNotLive (attemptId : Nat)
  | cannotFinalize (attemptId : Nat)
  | cannotFail (attemptId : Nat)
  | failureNotAccepted (runId : Nat)
  | runNotFinalized (runId : Nat)
  | recoveryLost
  | deadlineExhausted (stepId : Nat)
  | deadlineNotReadied
  | deadlineNotClaimed
  | deadlineLost
  | runOrStepNotFound
  | resumeNotWaiting (run : RunState) (step : StepState)
  | resumeLost (resolutionCode : String)
  | guardRejected (rejection : GuardRejection)
  | checkViolation (constraint : String)
  | uniqueViolation (constraint : String)
  deriving DecidableEq

/-- The texts the repository raises; the constraint violations are the
database's own. -/
def RuntimeError.message : RuntimeError → String
  | .invalidPlan raised => raised.message
  | .admissionConflict => "OPERATION_RUNTIME_ADMISSION_CONFLICT"
  | .leaseTooShort => "lease_duration must be at least one millisecond"
  | .leaseTooLong => "lease_duration cannot exceed one day"
  | .scheduleNotFound id => s!"Schedule {id} does not exist"
  | .scheduleMismatch => "Run requires an enabled Schedule with the same Runtime mode"
  | .configNotFound id => s!"Run config Artifact {id} does not exist"
  | .configMismatch => "Run config Artifact hash or integrity state does not match"
  | .keyError key => key
  | .runNotFound id => s!"Run {id} does not exist"
  | .runNotQueued id found => s!"Run {id} must be QUEUED, found " ++ found.value
  | .startRace id => s!"Run {id} start lost a state race"
  | .readyExhausted id => s!"Step {id} is READY after exhausting its retry budget"
  | .claimRace id => s!"Step {id} claim lost a state race"
  | .malformedUuid => "badly formed hexadecimal UUID string"
  | .notLiveFence id => s!"Attempt {id} does not own the current live fence"
  | .leaseExpired id => s!"Attempt {id} lease expired"
  | .notOwner id => s!"Attempt {id} no longer owns its Step"
  | .leaseNotLive id => s!"Attempt {id} lease is no longer live"
  | .cannotFinalize id => s!"Attempt {id} cannot finalize"
  | .cannotFail id => s!"Attempt {id} cannot fail its Step"
  | .failureNotAccepted id => s!"Run {id} could not accept failure"
  | .runNotFinalized id => s!"Run {id} could not finalize"
  | .recoveryLost => "recovery lost the locked Runtime state"
  | .deadlineExhausted id => s!"Step {id} exhausted attempts before deadline recovery"
  | .deadlineNotReadied => "deadline recovery could not ready Step"
  | .deadlineNotClaimed => "deadline recovery could not claim Step"
  | .deadlineLost => "deadline recovery lost locked Runtime state"
  | .runOrStepNotFound => "Run or Step does not exist"
  | .resumeNotWaiting run step =>
    "resume requires WAITING Run/Step, found ('" ++ run.value ++ "', '" ++ step.value ++ "')"
  | .resumeLost code => s!"resolution {code} could not resume locked Runtime state"
  | .guardRejected rejection => rejection.message
  | .checkViolation constraint => constraint
  | .uniqueViolation constraint => constraint

-- ==== the guards

/-- The edges `guard_runtime_run_update` allows. -/
def runAllowed : List (RunState × RunState) :=
  [(.queued, .running), (.queued, .cancelled), (.running, .waiting), (.running, .succeeded),
    (.running, .blocked), (.running, .failed),
    (.running, .cancelled), (.waiting, .running),
    (.waiting, .blocked), (.waiting, .failed),
    (.waiting, .cancelled)]

/-- The edges `guard_runtime_step_update` allows. -/
def stepAllowed : List (StepState × StepState) :=
  [(.pending, .ready), (.pending, .skipped), (.pending, .cancelled), (.ready, .claimed),
    (.ready, .cancelled), (.claimed, .running),
    (.claimed, .ready), (.claimed, .cancelled),
    (.running, .ready), (.running, .waiting),
    (.running, .succeeded), (.running, .blocked),
    (.running, .failed), (.running, .cancelled),
    (.waiting, .ready), (.waiting, .cancelled)]

/-- The edges `guard_runtime_attempt_update` allows. -/
def attemptAllowed : List (AttemptState × AttemptState) :=
  [(.claimed, .running), (.claimed, .abandoned),
    (.running, .succeeded), (.running, .failedRetryable),
    (.running, .failedTerminal), (.running, .abandoned),
    (.running, .reconciliationRequired)]

def guardRuntimeRunUpdate (old new : RunRow) : Option GuardRejection :=
  if new.runId ≠ old.runId then some .runEnvelope
  else if (old.state, new.state) ∉ runAllowed then
    some (.runTransition old.state new.state)
  else if new.version ≠ old.version + 1 then some .runVersion
  else none

def guardRuntimeStepUpdate (old new : StepRow) : Option GuardRejection :=
  if new.toStepPlan ≠ old.toStepPlan then some .stepPlan
  else if (old.state, new.state) ∉ stepAllowed then
    some (.stepTransition old.state new.state)
  else if new.version ≠ old.version + 1 then some .stepVersion
  else if old.state = .ready ∧ new.state = .claimed then
    if new.currentFence ≠ old.currentFence + 1 ∨ new.currentAttemptId = none then some .claimFence
    else none
  else if new.currentFence ≠ old.currentFence then some .stepFence
  else none

def guardRuntimeAttemptUpdate (old new : AttemptRow) :
    Option GuardRejection :=
  if new.toAttemptIdentity ≠ old.toAttemptIdentity then some .attemptClaim
  else if old.state = new.state then
    if ¬ old.state.live then some .attemptTerminal
    else if new.leaseUntil ≤ old.leaseUntil
        ∨ new.lastHeartbeatAt ≤ old.lastHeartbeatAt then some .heartbeat
    else none
  else if (old.state, new.state) ∉ attemptAllowed then
    some (.attemptTransition old.state new.state)
  else none

/-- The `CHECK` that ties a step's state to its current attempt,
`runtime_step_current_attempt_ck`. -/
def stepCurrentAttemptCk (new : StepRow) : Bool := new.state.live == new.currentAttemptId.isSome

def runTable : Table Write RuntimeError Db RunRow where
  rows db := [db.run]
  put rows db := { db with run := rows.headD db.run }
  note old new := .run old.state new.state
  guard old new := (guardRuntimeRunUpdate old new).map .guardRejected

/-- The step table; its `CHECK` is tested after the trigger. -/
def stepTable : Table Write RuntimeError Db StepRow where
  rows db := db.steps
  put rows db := { db with steps := rows }
  note old new := .step old.stepId old.state new.state
  guard old new :=
    match guardRuntimeStepUpdate old new with
    | some rejection => some (.guardRejected rejection)
    | none =>
      if stepCurrentAttemptCk new then none
      else some (.checkViolation "runtime_step_current_attempt_ck")

def attemptTable : Table Write RuntimeError Db AttemptRow where
  rows db := db.attempts
  put rows db := { db with attempts := rows }
  note old new := .attempt old.attemptId old.state new.state
  guard old new := (guardRuntimeAttemptUpdate old new).map .guardRejected

-- ==== what the guards let through

/-- A write along an edge of the frozen tables, or one that keeps its
state. -/
def Write.Legal : Write → Prop
  | .run source target => source = target ∨ ensureRunTransition source target = .ok ()
  | .step _ source target => source = target ∨ ensureStepTransition source target = .ok ()
  | .attempt _ source target => source = target ∨ ensureAttemptTransition source target = .ok ()

def RuntimeError.Rejects (e : RuntimeError) : Prop :=
  (∃ rejection, e = .guardRejected rejection)
    ∨ e = .checkViolation "runtime_step_current_attempt_ck"

theorem runAllowed_eq (e : RunState × RunState) : e ∈ runAllowed ↔ e ∈ runEdges := by
  obtain ⟨s, t⟩ := e
  cases s <;> cases t <;> decide

theorem stepAllowed_eq (e : StepState × StepState) : e ∈ stepAllowed ↔ e ∈ stepEdges := by
  obtain ⟨s, t⟩ := e
  cases s <;> cases t <;> decide

theorem attemptAllowed_eq (e : AttemptState × AttemptState) :
    e ∈ attemptAllowed ↔ e ∈ attemptEdges := by
  obtain ⟨s, t⟩ := e
  cases s <;> cases t <;> decide

theorem ensureTransition_ok {S : Type} [DecidableEq S] {kind : String}
    {value : S → String} {edges : List (S × S)} {source target : S} :
    ensureTransition kind value edges source target = .ok () ↔ (source, target) ∈ edges := by
  unfold ensureTransition
  rw [require_ok]

theorem runTable_pass {old new : RunRow} (h : runTable.guard old new = none) :
    (runTable.note old new).Legal := by
  right
  refine ensureTransition_ok.mpr ((runAllowed_eq _).mp ?_)
  have h' : guardRuntimeRunUpdate old new = none := by
    simpa only [runTable, Option.map_eq_none_iff] using h
  unfold guardRuntimeRunUpdate at h'
  split at h'
  · cases h'
  · split at h'
    · cases h'
    · next hmem => exact Decidable.not_not.mp hmem

variable {old new : StepRow}

theorem stepTable_pass (h : stepTable.guard old new = none) : (stepTable.note old new).Legal := by
  right
  refine ensureTransition_ok.mpr ((stepAllowed_eq _).mp ?_)
  have h' : guardRuntimeStepUpdate old new = none := by
    unfold stepTable at h
    simp only at h
    split at h
    · cases h
    · next hg => exact hg
  unfold guardRuntimeStepUpdate at h'
  split at h'
  · cases h'
  · split at h'
    · cases h'
    · next hmem => exact Decidable.not_not.mp hmem

theorem attemptTable_pass {old new : AttemptRow} (h : attemptTable.guard old new = none) :
    (attemptTable.note old new).Legal := by
  have h' : guardRuntimeAttemptUpdate old new = none := by
    simpa only [attemptTable, Option.map_eq_none_iff] using h
  unfold guardRuntimeAttemptUpdate at h'
  split at h'
  · cases h'
  · split at h'
    · next heq => exact Or.inl heq
    · split at h'
      · cases h'
      · next hmem =>
          right
          exact ensureTransition_ok.mpr ((attemptAllowed_eq _).mp (Decidable.not_not.mp hmem))

variable {e : RuntimeError}

theorem runTable_fail {old new : RunRow} (h : runTable.guard old new = some e) : e.Rejects := by
  obtain ⟨rejection, -, rfl⟩ := Option.map_eq_some_iff.mp h
  exact Or.inl ⟨rejection, rfl⟩

theorem stepTable_fail (h : stepTable.guard old new = some e) : e.Rejects := by
  unfold stepTable at h
  simp only at h
  split at h
  · next rejection _ =>
      injection h with h
      exact Or.inl ⟨rejection, h.symm⟩
  · split at h
    · cases h
    · injection h with h
      exact Or.inr h.symm

theorem attemptTable_fail {old new : AttemptRow}
    (h : attemptTable.guard old new = some e) : e.Rejects := by
  obtain ⟨rejection, -, rfl⟩ := Option.map_eq_some_iff.mp h
  exact Or.inl ⟨rejection, rfl⟩

-- ==== what the guards accept

theorem runTable_accept {old : RunRow} {state : RunState}
    (hedge : (old.state, state) ∈ runAllowed) :
    runTable.guard old { old with state, version := old.version + 1 } = none := by
  simp [runTable, guardRuntimeRunUpdate, hedge]

theorem stepTable_accept (s t : StepState) (hold : old.state = s) (hnew : new.state = t)
    (hedge : (s, t) ∈ stepAllowed) (hclaim : s ≠ .ready) (hplan : new.toStepPlan = old.toStepPlan)
    (hversion : new.version = old.version + 1) (hfence : new.currentFence = old.currentFence)
    (hck : new.currentAttemptId.isSome = t.live) :
    stepTable.guard old new = none := by
  simp [stepTable, guardRuntimeStepUpdate, stepCurrentAttemptCk, hplan,
    hold, hnew, hedge, hversion, hclaim, hfence, hck]

theorem stepTable_accept_claim (hplan : new.toStepPlan = old.toStepPlan) (hold : old.state = .ready)
    (hnew : new.state = .claimed) (hversion : new.version = old.version + 1)
    (hfence : new.currentFence = old.currentFence + 1) (hid : new.currentAttemptId.isSome) :
    stepTable.guard old new = none := by
  have hid' : new.currentAttemptId ≠ none := by
    intro h
    rw [h] at hid
    cases hid
  have hedge : (StepState.ready, StepState.claimed) ∈ stepAllowed := by decide
  simp [stepTable, guardRuntimeStepUpdate, stepCurrentAttemptCk, hplan,
    hedge, hversion, hold, hnew, hfence, hid, hid', StepState.live]

theorem attemptTable_accept {old new : AttemptRow} (s t : AttemptState) (hold : old.state = s)
    (hnew : new.state = t) (hedge : (s, t) ∈ attemptAllowed)
    (hid : new.toAttemptIdentity = old.toAttemptIdentity) :
    attemptTable.guard old new = none := by
  have hne : s ≠ t := by
    rintro rfl
    revert hedge
    cases s <;> decide
  simp [attemptTable, guardRuntimeAttemptUpdate, hid, hold, hnew, hne, hedge]

end MarketRegimeAlpha.Runtime
