/-
The changes a committed operation can make to a Run, as six shapes.

The clock moves (`tick`), and the nine operations and their branches
leave the rows in only these ways:

- `start`: the queued run goes, and its root steps are readied;
- `attach`: a waiting-to-run step gets a fresh attempt, and is claimed
  by it or has already failed with it;
- `move`: the live attempt of a held step goes on, is extended, or is
  settled, and the step and the run go along;
- `complete`: the running attempt succeeds, its step with it, the
  successors that nothing blocks any more are readied, and the run is
  finished when every step is;
- `resume`: the waiting step goes back to the queue.

Each shape carries the facts the operation has checked by then, so an
invariant is proved once for each shape and never unfolds an operation.
That every operation makes one of these changes, or none, is
`Proofs/Operations.lean`.
-/
import MarketRegimeAlpha.Runtime.Service

namespace MarketRegimeAlpha.Runtime

open Lib List

-- ==== the row updates

def Db.setStep (db : Db) (stepId : Nat) (g : StepRow → StepRow) : Db :=
  { db with steps := setRows (·.stepId == stepId) g db.steps }

def Db.setAttempt (db : Db) (attemptId : Nat) (f : AttemptRow → AttemptRow) : Db :=
  { db with attempts := setRows (·.attemptId == attemptId) f db.attempts }

def Db.addAttempt (db : Db) (attempt : AttemptRow) : Db :=
  { db with attempts := db.attempts ++ [attempt] }

def Db.setRun (db : Db) (state : RunState) : Db :=
  { db with run := { db.run with
      state := state
      version := db.run.version + 1 } }

def Db.readyWhere (db : Db) (p : StepRow → Bool) : Db :=
  { db with steps := setRows p (makeReady db.clock) db.steps }

/-- What a step's new state does to its run. -/
def Db.settle (db : Db) : StepState → Db
  | .waiting => db.setRun .waiting
  | .failed => db.setRun .failed
  | _ => db

/-- The steps `start_run` readies. -/
def Db.isRoot (db : Db) (step : StepRow) : Bool :=
  step.state == .pending && !db.hasDependency step.stepId

/-- The steps `_release_ready_successors` readies. -/
def Db.isReleased (db : Db) (step : StepRow) : Bool :=
  step.state == .pending && db.hasDependency step.stepId && !db.hasUnmetDependency step.stepId

/-- The condition `_finish_run_if_complete` finishes a run under. -/
def Db.complete (db : Db) : Bool :=
  db.steps.all (·.state.terminal) && db.steps.all fun step => !step.required
      || step.state == .succeeded || step.state == .skipped

def Db.finish (db : Db) : Db := if db.complete then db.setRun .succeeded else db

section Projections

variable (db : Db) (i : Nat) (g : StepRow → StepRow) (f : AttemptRow → AttemptRow) (a : AttemptRow)
  (r : RunState) (p : StepRow → Bool) (t : StepState)

@[simp] theorem setStep_steps : (db.setStep i g).steps = setRows (·.stepId == i) g db.steps := rfl
@[simp] theorem setStep_attempts : (db.setStep i g).attempts = db.attempts := rfl
@[simp] theorem setStep_dependencies : (db.setStep i g).dependencies = db.dependencies := rfl
@[simp] theorem setStep_run : (db.setStep i g).run = db.run := rfl
@[simp] theorem setStep_clock : (db.setStep i g).clock = db.clock := rfl

@[simp] theorem setAttempt_steps : (db.setAttempt i f).steps = db.steps := rfl
@[simp] theorem setAttempt_attempts : (db.setAttempt i f).attempts
    = setRows (·.attemptId == i) f db.attempts := rfl
@[simp] theorem setAttempt_dependencies : (db.setAttempt i f).dependencies = db.dependencies := rfl
@[simp] theorem setAttempt_run : (db.setAttempt i f).run = db.run := rfl
@[simp] theorem setAttempt_clock : (db.setAttempt i f).clock = db.clock := rfl

@[simp] theorem addAttempt_steps : (db.addAttempt a).steps = db.steps := rfl
@[simp] theorem addAttempt_attempts : (db.addAttempt a).attempts = db.attempts ++ [a] := rfl
@[simp] theorem addAttempt_dependencies : (db.addAttempt a).dependencies = db.dependencies := rfl
@[simp] theorem addAttempt_run : (db.addAttempt a).run = db.run := rfl
@[simp] theorem addAttempt_clock : (db.addAttempt a).clock = db.clock := rfl

@[simp] theorem setRun_steps : (db.setRun r).steps = db.steps := rfl
@[simp] theorem setRun_attempts : (db.setRun r).attempts = db.attempts := rfl
@[simp] theorem setRun_dependencies : (db.setRun r).dependencies = db.dependencies := rfl
@[simp] theorem setRun_state : (db.setRun r).run.state = r := rfl
@[simp] theorem setRun_runId : (db.setRun r).run.runId = db.run.runId := rfl
@[simp] theorem setRun_clock : (db.setRun r).clock = db.clock := rfl

@[simp] theorem readyWhere_steps : (db.readyWhere p).steps
    = setRows p (makeReady db.clock) db.steps := rfl
@[simp] theorem readyWhere_attempts : (db.readyWhere p).attempts = db.attempts := rfl
@[simp] theorem readyWhere_dependencies : (db.readyWhere p).dependencies = db.dependencies := rfl
@[simp] theorem readyWhere_run : (db.readyWhere p).run = db.run := rfl
@[simp] theorem readyWhere_clock : (db.readyWhere p).clock = db.clock := rfl

@[simp] theorem settle_steps : (db.settle t).steps = db.steps := by
  cases t <;> rfl
@[simp] theorem settle_attempts : (db.settle t).attempts = db.attempts := by
  cases t <;> rfl
@[simp] theorem settle_dependencies : (db.settle t).dependencies = db.dependencies := by
  cases t <;> rfl
@[simp] theorem settle_clock : (db.settle t).clock = db.clock := by
  cases t <;> rfl
@[simp] theorem settle_runId : (db.settle t).run.runId = db.run.runId := by
  cases t <;> rfl

@[simp] theorem finish_steps : db.finish.steps = db.steps := by
  unfold Db.finish
  split <;> rfl
@[simp] theorem finish_attempts : db.finish.attempts = db.attempts := by
  unfold Db.finish
  split <;> rfl
@[simp] theorem finish_dependencies : db.finish.dependencies = db.dependencies := by
  unfold Db.finish
  split <;> rfl
@[simp] theorem finish_clock : db.finish.clock = db.clock := by
  unfold Db.finish
  split <;> rfl
@[simp] theorem finish_runId : db.finish.run.runId = db.run.runId := by
  unfold Db.finish
  split <;> rfl

theorem settle_live {t : StepState} (h : t.live = true) : db.settle t = db := by
  cases t <;> first | rfl | cases h

@[simp] theorem setStep_id : db.setStep i id = db := by
  have hrows : setRows (·.stepId == i) id db.steps = db.steps := by simp [setRows]
  unfold Db.setStep
  rw [hrows]

end Projections

-- ==== fitting states

/-- An attempt that is over and did not succeed, with its step to be
tried again. -/
def AttemptState.spent (state : AttemptState) : Bool :=
  state == .failedRetryable || state == .abandoned
    || state == .reconciliationRequired

/-- The step state and the state of its latest attempt go together. -/
def fits (step : StepState) (attempt : AttemptState) : Bool :=
  match step with
  | .ready => attempt.spent
  | .claimed => attempt == .claimed
  | .running => attempt == .running
  | .waiting => attempt == .reconciliationRequired
  | .succeeded => attempt == .succeeded
  | .failed => attempt == .failedTerminal || attempt == .abandoned
  | _ => false

def currentOf (attempt : AttemptRow) : Option Nat :=
  if attempt.state.live then some attempt.attemptId else none

/-- Every update of a step keeps its plan, of an attempt its claim. -/
structure Keeps (f : AttemptRow → AttemptRow) (g : StepRow → StepRow) : Prop where
  plan : ∀ step, (g step).toStepPlan = step.toStepPlan
  identity : ∀ attempt, (f attempt).toAttemptIdentity = attempt.toAttemptIdentity

/-- `step` is held by its live attempt `attempt`, in a running run. -/
structure Held (db : Db) (step : StepRow) (attempt : AttemptRow) : Prop where
  running : db.run.state = .running
  step_mem : step ∈ db.steps
  attempt_mem : attempt ∈ db.attempts
  same : attempt.stepId = step.stepId
  live : attempt.state.live = true

-- ==== the changes

/-- The changes a committed operation can make, with the step it sends
back to the queue from waiting, if any. -/
inductive Change (db : Db) : Option Nat → Db → Prop
  | tick (d : Nat) : Change db none { db with clock := db.clock + d }
  | start : db.run.state = .queued → Change db none ((db.setRun .running).readyWhere db.isRoot)
  | attach {step : StepRow} {attempt : AttemptRow} {g : StepRow → StepRow} :
      db.run.state = .running → db.hasLiveStep = false →
      step ∈ db.steps → step.state = .pending ∨ step.state = .ready →
      attempt.stepId = step.stepId →
      (∀ other ∈ db.attempts, other.attemptId ≠ attempt.attemptId) →
      attempt.attemptNo = db.priorAttempts step.stepId + 1 →
      attempt.attemptNo ≤ step.maxAttempts →
      attempt.fenceToken = step.currentFence + 1 →
      attempt.lastHeartbeatAt = db.clock →
      Keeps id g → (g step).currentFence = attempt.fenceToken →
      (g step).currentAttemptId = currentOf attempt →
      fits (g step).state attempt.state = true →
      (step.state = .ready ∧ (g step).state = .claimed) ∨ (g step).state = .failed →
      Change db none (((db.addAttempt attempt).setStep step.stepId g).settle (g step).state)
  | move {step : StepRow} {attempt : AttemptRow}
      {f : AttemptRow → AttemptRow} {g : StepRow → StepRow} :
      Held db step attempt → Keeps f g →
      (f attempt).lastHeartbeatAt ≤ db.clock →
      (g step).currentFence = step.currentFence →
      (g step).currentAttemptId = currentOf (f attempt) →
      fits (g step).state (f attempt).state = true →
      ((g step).state = .ready → (g step).readyAt.isSome ∧ attempt.attemptNo < step.maxAttempts) →
      (g step).state ≠ .succeeded →
      Change db none (((db.setAttempt attempt.attemptId f).setStep step.stepId g).settle
          (g step).state)
  | complete {step : StepRow} {attempt : AttemptRow}
      {f : AttemptRow → AttemptRow} {g : StepRow → StepRow} {db₁ : Db} :
      Held db step attempt → Keeps f g →
      (f attempt).lastHeartbeatAt ≤ db.clock →
      (g step).currentFence = step.currentFence →
      (g step).currentAttemptId = none →
      (f attempt).state = .succeeded → (g step).state = .succeeded →
      db₁ = (db.setAttempt attempt.attemptId f).setStep step.stepId g →
      Change db none (db₁.readyWhere db₁.isReleased).finish
  | resume {step : StepRow} {g : StepRow → StepRow} :
      db.run.state = .waiting → step ∈ db.steps → step.state = .waiting →
      Keeps id g → (g step).currentFence = step.currentFence →
      (g step).currentAttemptId = step.currentAttemptId →
      (g step).state = .ready → (g step).readyAt.isSome →
      Change db (some step.stepId) ((db.setStep step.stepId g).setRun .running)

-- ==== the updated rows

section Rows

variable {db : Db} {i : Nat} {f : AttemptRow → AttemptRow} {g : StepRow → StepRow}

theorem Keeps.stepId (h : Keeps f g) (step : StepRow) : (g step).stepId = step.stepId :=
  congrArg StepPlan.stepId (h.plan step)

theorem Keeps.maxAttempts (h : Keeps f g) (step : StepRow) :
    (g step).maxAttempts = step.maxAttempts :=
  congrArg StepPlan.maxAttempts (h.plan step)

theorem Keeps.attemptId (h : Keeps f g) (attempt : AttemptRow) :
    (f attempt).attemptId = attempt.attemptId :=
  congrArg AttemptIdentity.attemptId (h.identity attempt)

theorem Keeps.attempt_stepId (h : Keeps f g) (attempt : AttemptRow) :
    (f attempt).stepId = attempt.stepId :=
  congrArg AttemptIdentity.stepId (h.identity attempt)

/-- A row of an updated step table is the updated row, or another one as
it was. -/
theorem mem_setStep (db : Db) (hids : (db.steps.map (·.stepId)).Nodup)
    {step : StepRow} (hstep : step ∈ db.steps) {x : StepRow} :
    x ∈ (db.setStep step.stepId g).steps
      ↔ x = g step ∨ (x ∈ db.steps ∧ x.stepId ≠ step.stepId) := by
  rw [setStep_steps, mem_setRows]
  constructor
  · rintro ⟨x₀, hx₀, rfl⟩
    by_cases hid : x₀.stepId = step.stepId
    · left
      have hx : x₀ = step := inj_on_of_nodup_map hids hx₀ hstep hid
      simp [hx]
    · right
      simp [hid, hx₀]
  · rintro (rfl | ⟨hx, hid⟩)
    · exact ⟨step, hstep, by simp⟩
    · exact ⟨x, hx, by simp [hid]⟩

theorem mem_setAttempt (hids : (db.attempts.map (·.attemptId)).Nodup) {attempt : AttemptRow}
    (hattempt : attempt ∈ db.attempts) {x : AttemptRow} :
    x ∈ (db.setAttempt attempt.attemptId f).attempts ↔ x = f attempt
        ∨ (x ∈ db.attempts ∧ x.attemptId ≠ attempt.attemptId) := by
  rw [setAttempt_attempts, mem_setRows]
  constructor
  · rintro ⟨x₀, hx₀, rfl⟩
    by_cases hid : x₀.attemptId = attempt.attemptId
    · left
      have hx : x₀ = attempt := inj_on_of_nodup_map hids hx₀ hattempt hid
      simp [hx]
    · right
      simp [hid, hx₀]
  · rintro (rfl | ⟨hx, hid⟩)
    · exact ⟨attempt, hattempt, by simp⟩
    · exact ⟨x, hx, by simp [hid]⟩

variable {a : AttemptRow} {stepId : Nat}

theorem mem_attemptsOf : a ∈ db.attemptsOf stepId ↔ a ∈ db.attempts ∧ a.stepId = stepId := by
  unfold Db.attemptsOf
  rw [mem_filter, beq_iff_eq]

theorem attemptsOf_congr {db' : Db} (h : db'.attempts = db.attempts)
    (stepId : Nat) : db'.attemptsOf stepId = db.attemptsOf stepId := by
  unfold Db.attemptsOf
  rw [h]

theorem attemptsOf_addAttempt (a : AttemptRow) (stepId : Nat) : (db.addAttempt a).attemptsOf stepId
      = if a.stepId = stepId then db.attemptsOf stepId ++ [a]
        else db.attemptsOf stepId := by
  unfold Db.attemptsOf
  by_cases h : a.stepId = stepId
  · simp [h]
  · simp [h]

theorem attemptsOf_setRows (hf : Keeps f g) (attemptId stepId : Nat) :
    (db.setAttempt attemptId f).attemptsOf stepId
      = setRows (·.attemptId == attemptId) f (db.attemptsOf stepId) := by
  unfold Db.attemptsOf
  exact filter_setRows (fun x => by rw [hf.attempt_stepId]) _

theorem attemptsOf_setAttempt (hf : Keeps f g) (hids : (db.attempts.map (·.attemptId)).Nodup)
    {earlier : List AttemptRow} (ha : db.attemptsOf a.stepId = earlier ++ [a]) :
    (db.setAttempt a.attemptId f).attemptsOf a.stepId = earlier ++ [f a] := by
  rw [attemptsOf_setRows hf, ha]
  refine setRows_last ?_
  rw [← ha]
  exact (filter_sublist.map _).nodup hids

theorem attemptsOf_setAttempt_other (hf : Keeps f g) (hids : (db.attempts.map (·.attemptId)).Nodup)
    (ha : a ∈ db.attempts) (hne : a.stepId ≠ stepId) :
    (db.setAttempt a.attemptId f).attemptsOf stepId = db.attemptsOf stepId := by
  rw [attemptsOf_setRows hf]
  refine setRows_none fun x hx => beq_eq_false_iff_ne.mpr fun hid => hne ?_
  obtain ⟨hmem, hstep⟩ := mem_attemptsOf.mp hx
  rw [← inj_on_of_nodup_map hids hmem ha hid]
  exact hstep

theorem setStep_setStep {g' : StepRow → StepRow} (hg : Keeps f g) :
    (db.setStep i g).setStep i g' = db.setStep i (g' ∘ g) := by
  unfold Db.setStep
  rw [setRows_setRows fun s => by rw [hg.stepId]]

theorem setAttempt_addAttempt (hfresh : ∀ b ∈ db.attempts, b.attemptId ≠ a.attemptId) :
    (db.addAttempt a).setAttempt a.attemptId f = db.addAttempt (f a) := by
  have hrows : setRows (·.attemptId == a.attemptId) f db.attempts = db.attempts :=
    setRows_none fun b hb => beq_eq_false_iff_ne.mpr (hfresh b hb)
  have happ : setRows (·.attemptId == a.attemptId) f (db.attempts ++ [a])
      = setRows (·.attemptId == a.attemptId) f db.attempts ++ [f a] := by
    simp [setRows]
  unfold Db.setAttempt Db.addAttempt
  rw [happ, hrows]

end Rows

end MarketRegimeAlpha.Runtime
