/-
Reachable states: what one event does, and what every run keeps.

Under the invariant an event is `Proper` — it raises, leaves the rows,
or commits a `Change` — with two exceptions, collected in `Refused`: a
recovery of an attempt claimed on the last budget, and a heartbeat while
the clock stands still. Either way the state after it is the state
before, or one `Change` further (`next_cases`), so the invariant holds
of every reached state (`reachable_inv`), whatever condition the events
of the run meet.
-/
import MarketRegimeAlpha.Runtime.Proofs.Claiming

namespace MarketRegimeAlpha.Runtime

open Lib

-- ==== one event

def Event.resumes : Event → Option Nat
  | .resumeWaitingStep _ stepId _ => some stepId
  | _ => none

def Refused : Event → Db → Prop
  | .recoverExpiredAttempt admitted attemptId, db =>
    admitted = true ∧ RecoversLastClaim attemptId db
  | .heartbeatAttempt claim lease, db => ValidLease lease ∧ BeatsTwice claim db
  | _, _ => False

section Drop

variable {α : Type} {db : Db} {resumed : Option Nat} {x : RuntimeTx α}

theorem Proper.drop (h : Proper db resumed (x.outcome db)) :
    Proper db resumed ((x >>= fun _ => pure ()).outcome db) := by
  cases hx : x.outcome db with
  | error e =>
    rw [hx] at h
    rw [Tx.outcome_drop_error.mpr hx]
    cases h with
    | raises he => exact .raises he
  | ok r =>
    rw [hx] at h
    rw [Tx.outcome_drop_ok (a := r.1) hx]
    cases h with
    | unchanged => exact .unchanged
    | changes hc => exact .changes hc

end Drop

variable {db : Db} {admitted : Bool}

theorem ClaimNext.proper {attemptId : Nat} {runId stepId : Option Nat}
    {workerId : String} {lease : Int} {r : Except RuntimeError (Option AttemptClaim × Db)}
    (h : ClaimNext db admitted attemptId runId workerId lease stepId r) :
    Proper db none r := by
  cases h with
  | refused _ he =>
    rcases he with rfl | rfl | rfl <;>
      exact .raises (not_rejects nofun nofun)
  | nothing _ => exact .unchanged
  | exhausted _ _ => exact .raises (not_rejects nofun nofun)
  | notInserted _ he => exact .raises he.not_rejects
  | claimed _ _ _ _ hc => exact .changes hc

theorem ExpireDeadline.proper {stepId attemptId : Nat} {leaseOwner : String}
    {r : Except RuntimeError (Option RecoveryDecision × Db)}
    (h : ExpireDeadline db admitted stepId attemptId leaseOwner r) :
    Proper db none r := by
  cases h with
  | refused _ => exact .raises (not_rejects nofun nofun)
  | nothing _ => exact .unchanged
  | exhausted _ _ _ _ _ => exact .raises (not_rejects nofun nofun)
  | notInserted _ he => exact .raises he.not_rejects
  | expired hc => exact .changes hc

theorem event_outcome (h : Inv db) (e : Event) :
    (Proper db e.resumes (e.tx.outcome db) ∧ ¬ Refused e db) ∨ (Refused e db ∧ ∃ rejection,
        e.tx.outcome db = .error (.guardRejected rejection)) := by
  cases e with
  | tick d => exact Or.inl ⟨.changes (a := ()) (.tick d), id⟩
  | startRun runId => exact Or.inl ⟨(startRun_proper h runId).drop, id⟩
  | claimNext admitted attemptId runId workerId lease stepId =>
    exact Or.inl ⟨(claimNext_outcome h _ _ _ _ _ _).proper.drop, id⟩
  | startAttempt claim => exact Or.inl ⟨(startAttempt_proper h claim).drop, id⟩
  | heartbeatAttempt claim lease =>
    rcases heartbeatAttempt_outcome h claim lease with
      ⟨hp, hnot⟩ | ⟨hvalid, htwice, hout⟩
    · exact Or.inl ⟨hp.drop, hnot⟩
    · exact Or.inr ⟨⟨hvalid, htwice⟩, .heartbeat, Tx.outcome_drop_error.mpr hout⟩
  | succeedAttempt claim => exact Or.inl ⟨(succeedAttempt_proper h claim).drop, id⟩
  | failAttempt claim code => exact Or.inl ⟨(failAttempt_proper h claim code).drop, id⟩
  | recoverExpiredAttempt admitted attemptId =>
    rcases recoverExpiredAttempt_outcome h admitted attemptId with
      ⟨hp, -, hnot⟩ | ⟨hadm, hlast, hout⟩
    · exact Or.inl ⟨hp.drop, hnot⟩
    · exact Or.inr ⟨⟨hadm, hlast⟩, _, Tx.outcome_drop_error.mpr hout⟩
  | expireStepDeadline admitted stepId attemptId owner =>
    exact Or.inl ⟨(expireStepDeadline_outcome h _ _ _ _).proper.drop, id⟩
  | resumeWaitingStep runId stepId code =>
    exact Or.inl ⟨(resumeWaitingStep_proper h runId stepId code).drop, id⟩

/-- The state after an event is the state before it, or one change
further. -/
theorem next_cases (h : Inv db) (e : Event) :
    next e db = db ∨ Change db e.resumes (next e db) := by
  unfold next
  rcases event_outcome h e with ⟨hp, -⟩ | ⟨-, rejection, hout⟩
  · generalize hr : e.tx.outcome db = r at hp
    cases hp with
    | raises _ => exact Or.inl (Tx.commit_error hr)
    | unchanged => exact Or.inl (Tx.commit_ok hr)
    | changes hc =>
      right
      rw [Tx.commit_ok hr]
      exact hc
  · exact Or.inl (Tx.commit_error hout)

-- ==== every run

theorem Inv.change {db db' : Db} {resumed : Option Nat} (h : Inv db)
    (hc : Change db resumed db') : Inv db' where
  ledger := h.ledger.change hc
  runOk := h.runOk.change h.ledger hc
  ranked := by rw [hc.dependencies]; exact h.ranked

theorem Fresh.inv (h : Fresh db) : Inv db := ⟨h.ledger, h.runOk, h.ranked⟩

theorem Inv.next (h : Inv db) (e : Event) : Inv (Runtime.next e db) := by
  rcases next_cases h e with heq | hc
  · rw [heq]
    exact h
  · exact h.change hc

/-- The invariant holds in every state reached, in any order of
events. -/
theorem reachable_inv {ok : Event → Db → Prop} (h : Reachable ok db) : Inv db :=
  Lib.Reach.inv (fun _ hs => hs.fresh.inv) (fun _ e hi _ => hi.next e) h

-- ==== the retry budget

/-- Every ready step whose plan meets `P` has an attempt left. -/
def Budget (P : StepPlan → Prop) (db : Db) : Prop :=
  ∀ s ∈ db.steps, s.state = .ready → P s.toStepPlan →
    (db.attemptsOf s.stepId).length < s.maxAttempts

def WaitsSpent (P : StepPlan → Prop) (stepId : Nat) (db : Db) : Prop :=
  ∃ step ∈ db.steps, step.stepId = stepId ∧ step.state = .waiting ∧ P step.toStepPlan
    ∧ step.maxAttempts ≤ (db.attemptsOf stepId).length

/-- The event sends such a step back to the queue. -/
def ResumesSpent (P : StepPlan → Prop) : Event → Db → Prop
  | .resumeWaitingStep runId stepId _, db => db.run.runId = runId ∧ WaitsSpent P stepId db
  | _, _ => False

section Budget

variable {P : StepPlan → Prop} {db db' : Db} {step : StepRow} {f : AttemptRow → AttemptRow}
  {g : StepRow → StepRow}

theorem length_attemptsOf_setAttempt (hk : Keeps f g) (i j : Nat) :
    ((db.setAttempt i f).attemptsOf j).length = (db.attemptsOf j).length := by
  rw [attemptsOf_setRows hk]
  unfold setRows
  rw [List.length_map]

/-- Readying steps that were pending keeps the budget: they have not
been tried yet. -/
theorem Budget.readyWhere (hl : Ledger db) (h : Budget P db) {p : StepRow → Bool}
    (hp : ∀ s ∈ db.steps, p s = true → s.state = .pending) :
    Budget P (db.readyWhere p) := by
  intro s hs hready hP
  obtain ⟨s₀, hs₀, rfl⟩ := mem_setRows.mp hs
  split at hready
  · next hps =>
      have hok := hl.step_ok s₀ hs₀
      rw [if_pos hps]
      show (db.attemptsOf s₀.stepId).length < s₀.maxAttempts
      rw [hok.pending_nil (hp s₀ hs₀ hps)]
      exact hok.tries
  · next hps =>
      rw [if_neg hps] at hP ⊢
      exact h s₀ hs₀ hready hP

/-- Setting one step keeps the budget if the step is not ready or has an
attempt left, and the attempts of the others stay as many. -/
theorem Budget.setStep (hl : Ledger db) (h : Budget P db) (db₀ : Db)
    (hsteps : db₀.steps = db.steps) (hstep : step ∈ db.steps)
    (hk : Keeps f g)
    (hothers : ∀ i, i ≠ step.stepId → (db₀.attemptsOf i).length = (db.attemptsOf i).length)
    (hown : (g step).state = .ready → P step.toStepPlan →
      (db₀.attemptsOf step.stepId).length < step.maxAttempts)
    (hdb' : db'.steps = (db₀.setStep step.stepId g).steps)
    (hattempts : db'.attempts = db₀.attempts) : Budget P db' := by
  intro s hs hready hP
  rw [attemptsOf_congr hattempts]
  rw [hdb', mem_setStep db₀ (by rw [hsteps]; exact hl.step_ids)
    (by rw [hsteps]; exact hstep), hsteps] at hs
  rcases hs with rfl | ⟨hs, hne⟩
  · rw [hk.plan] at hP
    rw [hk.stepId, hk.maxAttempts]
    exact hown hready hP
  · rw [hothers _ hne]
    exact h s hs hready hP

/-- Every change keeps the budget, but for the resume of a step that has
no attempt left. -/
theorem Budget.change (hl : Ledger db) (h : Budget P db) {resumed : Option Nat}
    (hc : Change db resumed db') (hresume : ∀ i, resumed = some i → ¬ WaitsSpent P i db) :
    Budget P db' := by
  cases hc with
  | tick d => exact h
  | start _ =>
    have hrun : Ledger (db.setRun .running) := hl.of_rows rfl rfl (Int.le_refl _)
    refine Budget.readyWhere hrun h fun s _ hs => ?_
    exact beq_iff_eq.mp (Bool.and_eq_true_iff.mp hs).1
  | @attach step attempt g _ _ hstep _ hsame _ _ _ _ _ hk _ _ _ htarget =>
    refine h.setStep hl (db.addAttempt attempt) rfl hstep hk
      (fun i hi => ?_) (fun hr => ?_) (settle_steps _ _)
      (settle_attempts _ _)
    · rw [attemptsOf_addAttempt, if_neg (by rw [hsame]; exact hi.symm)]
    · rcases htarget with ⟨-, ht⟩ | ht <;> rw [ht] at hr <;> cases hr
  | @move step attempt f g hheld hk _ _ _ _ hready _ =>
    refine h.setStep hl (db.setAttempt attempt.attemptId f) rfl
      hheld.step_mem hk (fun i _ => length_attemptsOf_setAttempt hk _ i)
      (fun hr _ => ?_) (settle_steps _ _) (settle_attempts _ _)
    obtain ⟨earlier, hatt, -, -⟩ := hl.held hheld
    have hok := hl.step_ok step hheld.step_mem
    rw [hatt] at hok
    rw [length_attemptsOf_setAttempt hk, hatt, ← hok.latest_no]
    exact (hready hr).2
  | @complete step attempt f g db₁ hheld hk hbeat hfence hcur hattempt hsucc hdb =>
    have hl₁ : Ledger db₁ := by
      subst hdb
      exact hl.move hheld hk hbeat hfence (by rw [hcur, currentOf, hattempt]; rfl)
        (by rw [hattempt, hsucc]; rfl)
        (fun hr => by rw [hsucc] at hr; cases hr)
    have hb₁ : Budget P db₁ := by
      subst hdb
      refine h.setStep hl (db.setAttempt attempt.attemptId f) rfl hheld.step_mem hk
        (fun i _ => length_attemptsOf_setAttempt hk _ i)
        (fun hr => ?_) rfl rfl
      rw [hsucc] at hr
      cases hr
    have hb₂ : Budget P (db₁.readyWhere db₁.isReleased) := by
      refine hb₁.readyWhere hl₁ fun s _ hs => ?_
      unfold Db.isReleased at hs
      rw [Bool.and_eq_true_iff, Bool.and_eq_true_iff] at hs
      exact beq_iff_eq.mp hs.1.1
    intro s hs hr hP
    rw [attemptsOf_congr (finish_attempts _)]
    rw [finish_steps] at hs
    exact hb₂ s hs hr hP
  | @resume step g _ hstep hwait hk _ _ _ _ =>
    refine h.setStep hl db rfl hstep hk (fun _ _ => rfl) (fun _ hP => ?_) rfl rfl
    refine Nat.lt_of_not_le fun hspent => ?_
    exact hresume _ rfl ⟨step, hstep, rfl, hwait, hP, hspent⟩

theorem Fresh.budget (h : Fresh db) : Budget P db := by
  intro s hs hready
  rw [(h.rows s hs).1] at hready
  cases hready

theorem next_resume_other {runId : Nat} (hid : db.run.runId ≠ runId)
    (stepId : Nat) (code : String) :
    next (.resumeWaitingStep runId stepId code) db = db := by
  have hout : ∃ e, (resumeWaitingStep runId stepId code).outcome db = .error e := by
    unfold resumeWaitingStep
    rw [Tx.outcome_get]
    cases db.steps.find? (·.stepId == stepId) with
    | none => exact ⟨_, rfl⟩
    | some step => exact ⟨_, Tx.outcome_require_neg hid⟩
  obtain ⟨e, he⟩ := hout
  exact Tx.commit_error (Tx.outcome_drop_error.mpr he)

/-- An event keeps the budget, unless it resumes a step that has no
attempt left. -/
theorem Budget.next (hi : Inv db) (h : Budget P db) {e : Event}
    (he : ¬ ResumesSpent P e db) : Budget P (Runtime.next e db) := by
  rcases next_cases hi e with heq | hc
  · rw [heq]
    exact h
  · cases e with
    | resumeWaitingStep runId stepId code =>
      by_cases hid : db.run.runId = runId
      · refine h.change hi.ledger hc fun i hi hspent => he ⟨hid, ?_⟩
        rw [Option.some.inj hi]
        exact hspent
      · rw [next_resume_other hid]
        exact h
    | _ => exact h.change hi.ledger hc nofun

/-- The budget holds in every state of the runs that resume no step
without an attempt left. -/
theorem reachable_budget {ok : Event → Db → Prop} (hok : ∀ e db, ok e db → ¬ ResumesSpent P e db)
    (h : Reachable ok db) : Budget P db := by
  have hboth : Inv db ∧ Budget P db := by
    refine Lib.Reach.inv (I := fun db => Inv db ∧ Budget P db)
      (fun _ hs => ⟨hs.fresh.inv, hs.fresh.budget⟩) ?_ h
    intro db e ⟨hi, hb⟩ he
    exact ⟨hi.next e, hb.next hi (hok e db he)⟩
  exact hboth.2

end Budget

end MarketRegimeAlpha.Runtime
