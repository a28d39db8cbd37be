/-
Scheduling a Run, and the event system of its life.

`scheduleRun` checks the plan and inserts the run, its steps and their
dependencies; `Scheduled` is what it can leave. From there any worker
may issue any operation at any time, and the clock may move: `Event` is
one such step, `Event.tx` the transaction it runs, and `next` the state
it commits. `Reachable ok` are the states of the runs whose every event
meets the condition `ok`.
-/
import MarketRegimeAlpha.Runtime.Repository

namespace MarketRegimeAlpha.Runtime

open Lib List

-- ==== scheduling

inductive RuntimeMode where
  | operational
  | historical
  | replay
  | shadow
  | prospective
  deriving DecidableEq

/-- The columns of a schedule that a run is checked against. -/
structure Schedule where
  runtimeMode : RuntimeMode
  enabled : Bool

structure ConfigArtifact where
  (contentSha256 integrityState : String)

structure RunSpec where
  (runId scheduleId : Nat)
  runtimeMode : RuntimeMode
  configArtifactId : Nat
  configHash : String

def stepRow (stepId : Nat) (spec : StepSpec) : StepRow where
  stepId := stepId
  stepKey := spec.stepKey
  stepKind := spec.stepKind
  required := spec.required
  ordinal := spec.ordinal
  maxAttempts := spec.retryPolicy.maxAttempts
  retryBackoffMs := spec.retryPolicy.backoff.map wholeMilliseconds
  retryableErrorCodes := spec.retryPolicy.retryableCodes
  deadlineAt := spec.retryPolicy.deadline
  externalEffectClass := spec.externalEffectClass
  state := .pending
  currentFence := 0
  currentAttemptId := none
  readyAt := none
  version := 1

def idOfKey (steps : List (Nat × StepSpec)) (key : String) :
    Except RuntimeError Nat :=
  match steps.reverse.find? (·.2.stepKey == key) with
  | some (stepId, _) => .ok stepId
  | none => .error (.keyError key)

def dependencyRow (steps : List (Nat × StepSpec)) (d : StepDependency) :
    Except RuntimeError DependencyRow := do
  let predecessorStepId ← idOfKey steps d.predecessorKey
  let successorStepId ← idOfKey steps d.successorKey
  return ⟨predecessorStepId, successorStepId, d.dependencyKind⟩

variable (schedule : Option Schedule)

/-- `insert_run`, at the clock reading `clock`. -/
def insertRun (artifact : Option ConfigArtifact) (clock : Int)
    (run : RunSpec) (steps : List (Nat × StepSpec)) (dependencies : List StepDependency) :
    Except RuntimeError Db :=
  match schedule with
  | none => .error (.scheduleNotFound run.scheduleId)
  | some schedule => do
      Lib.require (schedule.enabled ∧ schedule.runtimeMode = run.runtimeMode) .scheduleMismatch
      match artifact with
      | none => .error (.configNotFound run.configArtifactId)
      | some artifact => do
          Lib.require (artifact.contentSha256 = run.configHash
            ∧ artifact.integrityState = "AVAILABLE") .configMismatch
          Lib.require (steps.map (·.1)).Nodup (.uniqueViolation "runtime_step_pkey")
          let rows ← dependencies.mapM (dependencyRow steps)
          Lib.require rows.Nodup (.uniqueViolation "runtime_step_dependency_pkey")
          return {
            clock := clock
            run := ⟨run.runId, .queued, 1⟩
            steps := steps.map fun step => stepRow step.1 step.2
            attempts := []
            dependencies := rows }

/-- `schedule_run`: the plan is checked, and its steps, under the ids
`stepIds` drawn for them, are inserted. -/
def scheduleRun (artifact : Option ConfigArtifact) (clock : Int)
    (run : RunSpec) (steps : List StepSpec) (stepIds : List Nat)
    (dependencies : List StepDependency) : Except RuntimeError Db :=
  match validateStepDag steps dependencies with
  | .error raised => .error (.invalidPlan raised)
  | .ok () => insertRun schedule artifact clock run (stepIds.zip steps) dependencies

/-- The states `schedule_run` can leave: some accepted plan, with an id
drawn for each of its steps. -/
def Scheduled (db : Db) : Prop :=
  ∃ schedule artifact clock run steps stepIds dependencies, stepIds.length = steps.length
      ∧ scheduleRun schedule artifact clock run steps stepIds dependencies = .ok db

-- ==== events

/-- One event of a run's life: the clock moves, or some worker issues an
operation. -/
inductive Event where
  | tick (microseconds : Nat)
  | startRun (runId : Nat)
  | claimNext (admitted : Bool) (attemptId : Nat) (runId : Option Nat)
      (workerId : String) (leaseDuration : Int) (stepId : Option Nat)
  | startAttempt (claim : AttemptClaim)
  | heartbeatAttempt (claim : AttemptClaim) (leaseDuration : Int)
  | succeedAttempt (claim : AttemptClaim)
  | failAttempt (claim : AttemptClaim) (errorCode : String)
  | recoverExpiredAttempt (admitted : Bool) (attemptId : Nat)
  | expireStepDeadline (admitted : Bool) (stepId attemptId : Nat) (leaseOwner : String)
  | resumeWaitingStep (runId stepId : Nat) (resolutionCode : String)

def Event.tx : Event → RuntimeTx Unit
  | .tick d => Tx.insert fun db => { db with clock := db.clock + d }
  | .startRun runId => do
      let _ ← Runtime.startRun runId
  | .claimNext admitted attemptId runId workerId lease stepId => do
      let _ ← Runtime.claimNext admitted attemptId runId workerId lease stepId
  | .startAttempt claim => do
      let _ ← Runtime.startAttempt claim
  | .heartbeatAttempt claim lease => do
      let _ ← Runtime.heartbeatAttempt claim lease
  | .succeedAttempt claim => do
      let _ ← Runtime.succeedAttempt claim
  | .failAttempt claim errorCode => do
      let _ ← Runtime.failAttempt claim errorCode
  | .recoverExpiredAttempt admitted attemptId => do
      let _ ← Runtime.recoverExpiredAttempt admitted attemptId
  | .expireStepDeadline admitted stepId attemptId owner => do
      let _ ← Runtime.expireStepDeadline admitted stepId attemptId owner
  | .resumeWaitingStep runId stepId code => do
      let _ ← Runtime.resumeWaitingStep runId stepId code

/-- The state an event commits. -/
def next (e : Event) (db : Db) : Db := e.tx.commit db

/-- The states of the runs, from any scheduled state, whose events each
meet `ok`. -/
def Reachable (ok : Event → Db → Prop) : Db → Prop := Lib.Reach Scheduled next ok

/-- Every order of operations, by any workers, with any clock. -/
def Anytime : Event → Db → Prop := fun _ _ => True

theorem Reachable.run {db : Db} (h : Reachable Anytime db)
    (es : List Event) : Reachable Anytime (Lib.run next db es) :=
  Lib.Reach.run h es (.of_forall (fun _ _ => trivial) db es)

-- ==== what is scheduled

/-- What the proofs use of a freshly scheduled state: a queued run of
pending steps, without attempts, whose dependencies join its own steps
and go up in some rank. -/
structure Fresh (db : Db) : Prop where
  queued : db.run.state = .queued
  no_attempts : db.attempts = []
  nonempty : db.steps ≠ []
  step_ids : (db.steps.map (·.stepId)).Nodup
  rows : ∀ step ∈ db.steps, step.state = .pending
    ∧ step.currentFence = 0 ∧ step.currentAttemptId = none
    ∧ 1 ≤ step.maxAttempts
  known : ∀ d ∈ db.dependencies, ∃ p ∈ db.steps, p.stepId = d.predecessorStepId
  ranked : ∃ rank : Nat → Nat, ∀ d ∈ db.dependencies,
    rank d.predecessorStepId < rank d.successorStepId

variable {steps : List (Nat × StepSpec)}

theorem idOfKey_ok {key : String} {stepId : Nat} (h : idOfKey steps key = .ok stepId) :
    ∃ step ∈ steps, step.1 = stepId ∧ step.2.stepKey = key := by
  unfold idOfKey at h
  split at h
  · next stepId' spec hfind =>
      injection h with h
      refine ⟨(stepId', spec), ?_, h, ?_⟩
      · exact mem_reverse.mp (mem_of_find?_eq_some hfind)
      · simpa using find?_some hfind
  · cases h

theorem ranked_ids {dependencies : List StepDependency} {rows : List DependencyRow}
    (hids : (steps.map (·.1)).Nodup)
    (hrows : dependencies.mapM (dependencyRow steps) = .ok rows)
    {rank : String → Nat} (hrank : ∀ d ∈ dependencies,
      rank d.predecessorKey < rank d.successorKey) :
    ∃ rank' : Nat → Nat, ∀ r ∈ rows, rank' r.predecessorStepId < rank' r.successorStepId := by
  -- the rank of an id is the rank of the key it was drawn for
  refine ⟨fun id => ((steps.find? (·.1 == id)).map
    fun step => rank step.2.stepKey).getD 0, fun r hr => ?_⟩
  have hfind : ∀ step ∈ steps, steps.find? (·.1 == step.1) = some step := by
    intro step hstep
    exact find?_keyed hids hstep (beq_self_eq_true _) fun _ _ h => beq_iff_eq.mp h
  obtain ⟨d, hd, hrow⟩ := mem_mapM_ok hrows r hr
  simp only [dependencyRow, bind_ok, pure_ok] at hrow
  obtain ⟨p, hp, s, hs, rfl⟩ := hrow
  obtain ⟨sp, hsp, rfl, hpk⟩ := idOfKey_ok hp
  obtain ⟨ss, hss, rfl, hsk⟩ := idOfKey_ok hs
  simp only [hfind sp hsp, hfind ss hss, Option.map_some, Option.getD_some, hpk, hsk]
  exact hrank d hd

/-- What `schedule_run` leaves is fresh. -/
theorem Scheduled.fresh {db : Db} (h : Scheduled db) : Fresh db := by
  obtain ⟨schedule, artifact, clock, run, steps, stepIds, dependencies, hlen, h⟩ := h
  unfold scheduleRun at h
  split at h
  · cases h
  · next hvalid =>
      have hplan := validateStepDag_plan hvalid
      unfold insertRun at h
      split at h
      · cases h
      · simp only [bind_ok, require_ok] at h
        obtain ⟨_, -, h⟩ := h
        split at h
        · cases h
        · simp only [bind_ok, require_ok, pure_ok] at h
          obtain ⟨_, -, _, hids, rows, hrows, _, -, rfl⟩ := h
          obtain ⟨rank, hrank⟩ := hplan.ranked
          refine ⟨rfl, rfl, ?_, ?_, ?_, ?_, ranked_ids hids hrows hrank⟩
          · intro hnil
            have hnil' := congrArg List.length hnil
            rw [length_map, length_zip, hlen, Nat.min_self, length_nil] at hnil'
            exact hplan.nonempty (eq_nil_of_length_eq_zero hnil')
          · rw [map_map]
            exact hids
          · intro step hstep
            obtain ⟨planned, -, rfl⟩ := mem_map.mp hstep
            exact ⟨rfl, rfl, rfl, planned.2.retryPolicy.maxAttempts_range.1⟩
          · intro r hr
            obtain ⟨d, -, hrow⟩ := mem_mapM_ok hrows r hr
            simp only [dependencyRow, bind_ok, pure_ok] at hrow
            obtain ⟨p, hp, s, -, rfl⟩ := hrow
            obtain ⟨sp, hsp, rfl, -⟩ := idOfKey_ok hp
            exact ⟨_, mem_map_of_mem hsp, rfl⟩

-- ==== a small run

variable (effect : ExternalEffectClass)

/-- One step that may be tried once. -/
def soloSpec : StepSpec where
  stepKey := "settle"
  stepKind := "SETTLE"
  ordinal := 1
  required := true
  retryPolicy := .once
  externalEffectClass := effect
  stepKey_format := by decide
  stepKind_format := by decide

def soloRun : Db where
  clock := 0
  run := ⟨1, .queued, 1⟩
  steps := [stepRow 1 (soloSpec effect)]
  attempts := []
  dependencies := []

theorem soloRun_scheduled (h : effect ≠ .nonIdempotentRemoteCommand) :
    Scheduled (soloRun effect) := by
  refine ⟨some ⟨.operational, true⟩, some ⟨"digest", "AVAILABLE"⟩, 0,
    ⟨1, 1, .operational, 1, "digest"⟩, [soloSpec effect], [1], [], rfl, ?_⟩
  cases effect with
  | nonIdempotentRemoteCommand => exact absurd rfl h
  | _ => decide

end MarketRegimeAlpha.Runtime
