/-
Conformance: the updates an operation issues follow the frozen edges.

The guards of the tables let through only edges, and every operation is
built from guarded updates, so whatever an operation issues is an edge,
keeps its state, or is the update whose rejection aborted it
(`event_audited`) — of any state at all, reachable or not. What is left
is which updates are ever rejected, and `event_outcome` says that under
the invariant these are the `Refused` ones. The recoveries add a budget
to respect: they raise on a ready step that has no attempt left.
-/
import MarketRegimeAlpha.Runtime.Proofs.Reachable

namespace MarketRegimeAlpha.Runtime

open Lib

-- ==== the audit

/-- Every update issued is an edge or keeps its state, or it is the one
the database refused. -/
abbrev Sound {α : Type} (x : RuntimeTx α) : Prop := Audited Write.Legal RuntimeError.Rejects x

variable (runId : Nat)

theorem updateRun_sound (source : Option RunState)
    (target : RunState) : Sound (updateRun runId source target) :=
  .update (fun _ => runTable_pass) fun _ _ => runTable_fail

theorem updateSteps_sound (p : StepRow → Bool) (g : StepRow → StepRow) :
    Sound (Tx.update stepTable p g) :=
  .update (fun _ => stepTable_pass) fun _ _ => stepTable_fail

theorem updateAttempts_sound (p : AttemptRow → Bool)
    (f : AttemptRow → AttemptRow) : Sound (Tx.update attemptTable p f) :=
  .update (fun _ => attemptTable_pass) fun _ _ => attemptTable_fail

theorem leaseMilliseconds_sound (duration : Int) : Sound (leaseMilliseconds duration) :=
  .bind (.require _ _) fun _ => .bind (.require _ _) fun _ => .pure _

theorem insertAttempt_sound (attempt : AttemptRow) : Sound (insertAttempt attempt) :=
  .bind (.select _) fun _ => .bind (.require _ _) fun _ =>
    .bind (.require _ _) fun _ => .bind (.require _ _) fun _ =>
      .bind (.require _ _) fun _ => .bind (.require _ _) fun _ => .insert _

variable (claim : AttemptClaim)

theorem lockLiveClaim_sound (required : Option AttemptState) :
    Sound (lockLiveClaim claim required) := by
  refine .bind .get fun db => ?_
  split
  · exact .raise _
  · exact .bind (.require _ _) fun _ => .bind (.require _ _) fun _ =>
      .bind (.require _ _) fun _ => .bind (.require _ _) fun _ => .pure _

theorem settleRun_sound (state : StepState) : Sound (settleRun runId state) := by
  unfold settleRun
  split
  · exact updateRun_sound _ _ _
  · exact updateRun_sound _ _ _
  · exact .select _

theorem finishRunIfComplete_sound : Sound (finishRunIfComplete runId) := by
  refine .bind .get fun db => .bind (.require _ _) fun _ => ?_
  split
  · refine .bind (updateRun_sound _ _ _) fun finished => ?_
    split
    · exact .raise _
    · exact .pure _
  · exact .pure _

theorem startRun_sound : Sound (startRun runId) := by
  refine .bind .get fun db => .bind (.require _ _) fun _ =>
    .bind (.require _ _) fun _ => .bind (updateRun_sound _ _ _) fun updated => ?_
  split
  · exact .raise _
  · exact .bind (updateSteps_sound _ _) fun _ => .pure _

variable (admitted : Bool)

theorem claimNext_sound (attemptId : Nat) (runId : Option Nat) (workerId : String)
    (lease : Int) (stepId : Option Nat) :
    Sound (claimNext admitted attemptId runId workerId lease stepId) := by
  refine .bind (leaseMilliseconds_sound _) fun leaseMs =>
    .bind (.require _ _) fun _ => .bind .get fun db => ?_
  split
  · exact .pure _
  · refine .bind (.require _ _) fun _ =>
      .bind (insertAttempt_sound _) fun _ => .bind (updateSteps_sound _ _) fun updated => ?_
    split
    · exact .raise _
    · exact .pure _

theorem startAttempt_sound : Sound (startAttempt claim) := by
  refine .bind (lockLiveClaim_sound _ _) fun _ => .bind .get fun db =>
    .bind (updateAttempts_sound _ _) fun attempts => .bind (updateSteps_sound _ _) fun steps => ?_
  split
  · exact .pure _
  · exact .raise _

theorem heartbeatAttempt_sound (lease : Int) : Sound (heartbeatAttempt claim lease) := by
  refine .bind (leaseMilliseconds_sound _) fun leaseMs =>
    .bind (lockLiveClaim_sound _ _) fun _ => .bind .get fun db =>
      .bind (updateAttempts_sound _ _) fun attempts => ?_
  split
  · exact .raise _
  · exact .pure _

theorem succeedAttempt_sound : Sound (succeedAttempt claim) := by
  refine .bind (lockLiveClaim_sound _ _) fun _ => .bind .get fun db =>
    .bind (updateAttempts_sound _ _) fun attempts => .bind (updateSteps_sound _ _) fun steps => ?_
  split
  · refine .bind ?_ fun _ => .bind (finishRunIfComplete_sound _) fun _ => .pure _
    exact .bind .get fun _ => .bind (updateSteps_sound _ _) fun _ => .pure _
  · exact .raise _

theorem failAttempt_sound (errorCode : String) : Sound (failAttempt claim errorCode) := by
  refine .bind (lockLiveClaim_sound _ _) fun row => .bind .get fun db =>
    .bind (updateAttempts_sound _ _) fun _ => .bind (updateSteps_sound _ _) fun steps => ?_
  split
  · exact .raise _
  · refine .bind (settleRun_sound _ _) fun runs => ?_
    split
    · exact .raise _
    · exact .pure _

theorem recoverExpiredAttempt_sound (attemptId : Nat) :
    Sound (recoverExpiredAttempt admitted attemptId) := by
  refine .bind .get fun db => ?_
  split
  · exact .pure _
  · refine .bind (.require _ _) fun _ => ?_
    split
    · exact .pure _
    · refine .bind (updateAttempts_sound _ _) fun _ =>
        .bind (updateSteps_sound _ _) fun steps => .bind (settleRun_sound _ _) fun runs => ?_
      split
      · exact .pure _
      · exact .raise _

theorem expireStepDeadline_sound (stepId attemptId : Nat) (leaseOwner : String) :
    Sound (expireStepDeadline admitted stepId attemptId leaseOwner) := by
  refine .bind (.require _ _) fun _ => .bind .get fun db => ?_
  split
  · exact .pure _
  · refine .bind (.require _ _) fun _ => .bind ?_ fun _ =>
      .bind (insertAttempt_sound _) fun _ =>
        .bind (updateSteps_sound _ _) fun claimed =>
          .bind (.require _ _) fun _ =>
            .bind (updateAttempts_sound _ _) fun _ =>
              .bind (updateSteps_sound _ _) fun _ =>
                .bind (updateAttempts_sound _ _) fun _ =>
                  .bind (updateSteps_sound _ _) fun failed =>
                    .bind (updateRun_sound _ _ _) fun runs => ?_
    · unfold readyForDeadline
      split
      · exact .bind (updateSteps_sound _ _) fun _ => .require _ _
      · exact .pure _
    · split
      · exact .pure _
      · exact .raise _

theorem resumeWaitingStep_sound (runId stepId : Nat) (code : String) :
    Sound (resumeWaitingStep runId stepId code) := by
  refine .bind .get fun db => ?_
  split
  · exact .raise _
  · refine .bind (.require _ _) fun _ => .bind (.require _ _) fun _ =>
      .bind (updateSteps_sound _ _) fun steps => .bind (updateRun_sound _ _ _) fun runs => ?_
    split
    · exact .pure _
    · exact .raise _

theorem event_audited (e : Event) : Sound e.tx := by
  cases e with
  | tick d => exact .insert _
  | startRun runId => exact .bind (startRun_sound _) fun _ => .pure _
  | claimNext admitted attemptId runId workerId lease stepId =>
    exact .bind (claimNext_sound _ _ _ _ _ _) fun _ => .pure _
  | startAttempt claim => exact .bind (startAttempt_sound _) fun _ => .pure _
  | heartbeatAttempt claim lease => exact .bind (heartbeatAttempt_sound _ _) fun _ => .pure _
  | succeedAttempt claim => exact .bind (succeedAttempt_sound _) fun _ => .pure _
  | failAttempt claim code => exact .bind (failAttempt_sound _ _) fun _ => .pure _
  | recoverExpiredAttempt admitted attemptId =>
    exact .bind (recoverExpiredAttempt_sound _ _) fun _ => .pure _
  | expireStepDeadline admitted stepId attemptId owner =>
    exact .bind (expireStepDeadline_sound _ _ _ _) fun _ => .pure _
  | resumeWaitingStep runId stepId code =>
    exact .bind (resumeWaitingStep_sound _ _ _) fun _ => .pure _

-- ==== conformance

/-- The events a supervisor recovers a run with: admitted, and with an
attempt of its own to insert. -/
def Recovers : Event → Db → Prop
  | .recoverExpiredAttempt admitted _, _ => admitted = true
  | .expireStepDeadline admitted _ attemptId leaseOwner, db =>
    admitted = true ∧ Insertable db attemptId leaseOwner
  | _, _ => False

/-- What the lifecycle asks of an event: the updates it issues follow
the frozen edges or keep the state, the database refuses none of them,
and if it is a recovery it does not raise. -/
structure Conforms (e : Event) (db : Db) : Prop where
  legal : ∀ w ∈ e.tx.journal db, w.Legal
  accepted : ∀ err, e.tx.outcome db = .error err → ¬ err.Rejects
  recovers : Recovers e db → ∀ err, e.tx.outcome db ≠ .error err

def HasDeadline (plan : StepPlan) : Prop := plan.deadlineAt.isSome = true

/-- No update of the event is refused, and it readies no step that its
deadline could not fail any more. -/
def Sparing (e : Event) (db : Db) : Prop := ¬ Refused e db ∧ ¬ ResumesSpent HasDeadline e db

/-- The deadline of a step is enforced while the step has an attempt
left. -/
theorem expireStepDeadline_returns {db : Db} (h : Inv db) (hbudget : Budget HasDeadline db)
    {stepId attemptId : Nat} {leaseOwner : String} (hins : Insertable db attemptId leaseOwner)
    (err : RuntimeError) :
    (expireStepDeadline true stepId attemptId leaseOwner).outcome db ≠ .error err := by
  intro hout
  have hcase := expireStepDeadline_outcome h true stepId attemptId leaseOwner
  rw [hout] at hcase
  cases hcase with
  | refused hadm => cases hadm
  | exhausted hstep _ hready hdeadline hspent =>
    have hleft := hbudget _ hstep hready hdeadline
    omega
  | notInserted hnot _ => exact hnot hins

/-- In a run that spares the database and its deadlines, an event
conforms unless it is refused. -/
theorem runtime_conforms {db : Db} (h : Reachable Sparing db) (e : Event) :
    Conforms e db ↔ ¬ Refused e db := by
  have hinv := reachable_inv h
  have hbudget : Budget HasDeadline db := reachable_budget (fun _ _ hok => hok.2) h
  rcases event_outcome hinv e with ⟨hproper, hnot⟩ | ⟨href, rejection, hout⟩
  · refine ⟨fun _ => hnot, fun _ => ?_⟩
    have haccepted : ∀ err, e.tx.outcome db = .error err → ¬ err.Rejects := by
      intro err herr
      rw [herr] at hproper
      cases hproper with
      | raises hrejects => exact hrejects
    refine ⟨?_, haccepted, fun hrec err => ?_⟩
    · rcases event_audited e db with hlegal | ⟨err, herr, hrejects⟩
      · exact hlegal
      · exact absurd hrejects (haccepted err herr)
    · cases e with
      | recoverExpiredAttempt admitted attemptId =>
        intro herr
        rcases recoverExpiredAttempt_outcome hinv admitted attemptId with
          ⟨-, hreturns, -⟩ | ⟨hadm, hlast, -⟩
        · exact hreturns hrec err (Tx.outcome_drop_error.mp herr)
        · exact hnot ⟨hadm, hlast⟩
      | expireStepDeadline admitted stepId attemptId leaseOwner =>
        obtain ⟨rfl, hins⟩ := hrec
        intro herr
        exact expireStepDeadline_returns hinv hbudget hins err (Tx.outcome_drop_error.mp herr)
      | _ => exact hrec.elim
  · refine ⟨fun hconf => ?_, fun hnot => absurd href hnot⟩
    exact absurd (Or.inl ⟨rejection, rfl⟩) (hconf.accepted _ hout)

/-- A run that claims its step, starts it, and may still finish it. -/
theorem runtime_conforms_solo :
    Conforms (.succeedAttempt ⟨7, 1, 1, "settle", 1, 1, "worker", 1000000⟩)
      (Lib.run next (soloRun .none) [.startRun 1, .claimNext true 7 none "worker" 1000000 none,
          .startAttempt ⟨7, 1, 1, "settle", 1, 1, "worker", 1000000⟩]) :=
  (runtime_conforms (Lib.Reach.run (.start (soloRun_scheduled .none (by decide))) [_, _, _]
    ⟨⟨id, id⟩, ⟨id, id⟩, ⟨id, id⟩, trivial⟩) _).mpr id

/-- The same step, claimed on its only attempt by a worker whose lease
has run out. -/
def lastClaim : Db :=
  Lib.run next (soloRun .none) [.startRun 1, .claimNext true 7 none "worker" 1000000 none,
      .tick 1000000]

/-- Its recovery takes the step from CLAIMED to FAILED, which is no
edge, and is refused at every later clock reading as well. -/
theorem lastClaim_not_conforms : Reachable Anytime lastClaim ∧ Write.step 1 .claimed .failed
        ∈ (Event.recoverExpiredAttempt true 7).tx.journal lastClaim
      ∧ ¬ (Write.step 1 .claimed .failed).Legal
      ∧ ¬ Conforms (.recoverExpiredAttempt true 7) lastClaim
      ∧ ∀ later : Nat, (recoverExpiredAttempt true 7).outcome (next (.tick later) lastClaim)
        = .error (.guardRejected (.stepTransition .claimed .failed)) := by
  have hreach : Reachable Anytime lastClaim :=
    Reachable.run (.start (soloRun_scheduled .none (by decide))) _
  have hillegal : ¬ (Write.step 1 .claimed .failed).Legal := by
    rintro (h | h)
    · cases h
    · rw [ensureStepTransition, ensureTransition_ok] at h
      revert h
      decide
  have hissued : Write.step 1 .claimed .failed
      ∈ (Event.recoverExpiredAttempt true 7).tx.journal lastClaim := by
    decide
  refine ⟨hreach, hissued, hillegal, fun hconf => hillegal (hconf.legal _ hissued), fun later => ?_⟩
  have hlast : RecoversLastClaim 7 (next (.tick later) lastClaim) := by
    have hstep : ∃ step ∈ lastClaim.steps, ∃ attempt ∈ lastClaim.attempts,
        attempt.stepId = step.stepId ∧ attempt.attemptId = 7 ∧ attempt.state = .claimed
          ∧ step.maxAttempts ≤ attempt.attemptNo
          ∧ attempt.leaseUntil ≤ lastClaim.clock := by
      decide
    obtain ⟨step, hstep, attempt, hattempt, hsame, hid, hclaimed, hlast, hlease⟩ := hstep
    have hrun : lastClaim.run.state = .running := by decide
    refine ⟨step, attempt, ⟨hrun, hstep, hattempt, hsame, ?_⟩, hid, ?_, hclaimed, hlast⟩
    · rw [hclaimed]
      rfl
    · show attempt.leaseUntil ≤ lastClaim.clock + later
      omega
  rcases recoverExpiredAttempt_outcome
    (reachable_inv (.step (.tick later) hreach trivial)) true 7 with
    ⟨-, -, hnot⟩ | ⟨-, -, hout⟩
  · exact absurd ⟨rfl, hlast⟩ hnot
  · exact hout

end MarketRegimeAlpha.Runtime
