/-
Fencing: which worker may write, and what is written once.

The claims a worker can present are tested against the rows by
`_lock_live_claim`, so an operation with a claim that is not its step's
current one, or whose lease has run out, raises before it writes
(`stale_claim_raises`). A step that has succeeded is no change's step any
more (`Change.frozen`), so its row and its attempts stay as they are over
every further run.
-/
import MarketRegimeAlpha.Runtime.Proofs.Reachable

namespace MarketRegimeAlpha.Runtime

open Lib

variable {db db' : Db}

-- ==== the claim

def Event.claim : Event → Option AttemptClaim
  | .startAttempt claim => some claim
  | .heartbeatAttempt claim _ => some claim
  | .succeedAttempt claim => some claim
  | .failAttempt claim _ => some claim
  | _ => none

/-- The claim is its step's current attempt and fence, and its lease has
not run out. -/
def Current (claim : AttemptClaim) (db : Db) : Prop :=
  ∃ step ∈ db.steps, ∃ attempt ∈ db.attempts, step.stepId = claim.stepId
      ∧ step.currentAttemptId = some claim.attemptId
      ∧ step.currentFence = claim.fenceToken
      ∧ attempt.attemptId = claim.attemptId
      ∧ db.clock < attempt.leaseUntil

variable {claim : AttemptClaim}

theorem Owns.isCurrent {step : StepRow} {attempt : AttemptRow} (h : Owns db claim step attempt) :
    Current claim db :=
  ⟨step, h.held.step_mem, attempt, h.held.attempt_mem, h.stepId, h.current,
    h.currentFence, h.attemptId, h.lease⟩

/-- `_lock_live_claim` refuses a claim that is not current. -/
theorem lockLiveClaim_stale (h : ¬ Current claim db) (required : Option AttemptState)
    (hlive : ∀ s, required = some s → s.live = true) :
    ∃ e, (lockLiveClaim claim required).outcome db = .error e := by
  rcases lockLiveClaim_outcome db claim required hlive with
    ⟨e, he, -⟩ | ⟨step, attempt, howns, -⟩
  · exact ⟨e, he⟩
  · exact absurd howns.isCurrent h

/-- An operation presented with a claim that is not current raises. -/
theorem stale_claim_raises {e : Event} (he : e.claim = some claim) (h : ¬ Current claim db) :
    ∃ err, e.tx.outcome db = .error err := by
  have hrunning : ∀ s, some AttemptState.running = some s → s.live = true := by
    intro s hs
    rw [← Option.some.inj hs]
    rfl
  have hclaimed : ∀ s, some AttemptState.claimed = some s → s.live = true := by
    intro s hs
    rw [← Option.some.inj hs]
    rfl
  cases e with
  | startAttempt c =>
    rw [Option.some.inj he] at *
    obtain ⟨err, herr⟩ := lockLiveClaim_stale h _ hclaimed
    exact ⟨err, Tx.outcome_drop_error.mpr (Tx.outcome_bind_error herr)⟩
  | heartbeatAttempt c lease =>
    rw [Option.some.inj he] at *
    rcases leaseMilliseconds_outcome db lease with
      ⟨err, herr, -⟩ | ⟨-, hms⟩
    · exact ⟨err, Tx.outcome_drop_error.mpr (Tx.outcome_bind_error herr)⟩
    · obtain ⟨err, herr⟩ := lockLiveClaim_stale h none nofun
      refine ⟨err, Tx.outcome_drop_error.mpr ?_⟩
      unfold heartbeatAttempt
      rw [Tx.outcome_bind_ok hms]
      exact Tx.outcome_bind_error herr
  | succeedAttempt c =>
    rw [Option.some.inj he] at *
    obtain ⟨err, herr⟩ := lockLiveClaim_stale h _ hrunning
    exact ⟨err, Tx.outcome_drop_error.mpr (Tx.outcome_bind_error herr)⟩
  | failAttempt c code =>
    rw [Option.some.inj he] at *
    obtain ⟨err, herr⟩ := lockLiveClaim_stale h _ hrunning
    exact ⟨err, Tx.outcome_drop_error.mpr (Tx.outcome_bind_error herr)⟩
  | _ => cases he

-- ==== a done step

theorem Inv.step_eq (h : Inv db) {s t : StepRow} (hs : s ∈ db.steps)
    (ht : t ∈ db.steps) (hid : s.stepId = t.stepId) : s = t :=
  List.inj_on_of_nodup_map h.ledger.step_ids hs ht hid

variable {s : StepRow}

theorem mem_readyWhere {p : StepRow → Bool} (hs : s ∈ db.steps) (hp : p s = false) :
    s ∈ (db.readyWhere p).steps := by
  refine mem_setRows.mpr ⟨s, hs, ?_⟩
  rw [hp]
  rfl

/-- No change touches a step that has succeeded, or its attempts. -/
theorem Change.frozen {resumed : Option Nat} (h : Inv db)
    (hc : Change db resumed db') (hs : s ∈ db.steps)
    (hsucc : s.state = .succeeded) :
    s ∈ db'.steps ∧ db'.attemptsOf s.stepId = db.attemptsOf s.stepId := by
  -- a step in any other state is another step
  have hother : ∀ t ∈ db.steps, t.state ≠ .succeeded → s.stepId ≠ t.stepId := by
    intro t ht hne hid
    rw [h.step_eq hs ht hid] at hsucc
    exact hne hsucc
  have hheld : ∀ {t : StepRow} {a : AttemptRow}, Held db t a → t.state ≠ .succeeded := by
    intro t a hheld hst
    obtain ⟨-, -, hfits, -⟩ := h.ledger.held hheld
    rcases fits_live hfits hheld.live with ⟨ht, -⟩ | ⟨ht, -⟩ <;>
      rw [hst] at ht <;> cases ht
  cases hc with
  | tick d => exact ⟨hs, rfl⟩
  | start _ =>
    refine ⟨mem_readyWhere hs ?_, rfl⟩
    simp [Db.isRoot, hsucc]
  | @attach step attempt g _ _ hstep hstate hsame _ _ _ _ _ hk _ _ _ _ =>
    have hne := hother step hstep (by
      rcases hstate with hst | hst <;> rw [hst] <;> decide)
    rw [settle_steps, attemptsOf_congr (settle_attempts _ _)]
    refine ⟨(mem_setStep (db.addAttempt attempt) h.ledger.step_ids
      hstep).mpr (Or.inr ⟨hs, hne⟩), ?_⟩
    rw [attemptsOf_congr (setStep_attempts _ _ _), attemptsOf_addAttempt,
      if_neg (by rw [hsame]; exact hne.symm)]
  | @move step attempt f g hh hk _ _ _ _ _ _ =>
    have hne := hother step hh.step_mem (hheld hh)
    rw [settle_steps, attemptsOf_congr (settle_attempts _ _)]
    refine ⟨(mem_setStep (db.setAttempt attempt.attemptId f)
      h.ledger.step_ids hh.step_mem).mpr (Or.inr ⟨hs, hne⟩), ?_⟩
    exact attemptsOf_setAttempt_other hk h.ledger.attempt_ids
      hh.attempt_mem (by rw [hh.same]; exact hne.symm)
  | @complete step attempt f g db₁ hh hk _ _ _ _ _ hdb =>
    have hne := hother step hh.step_mem (hheld hh)
    subst hdb
    rw [finish_steps, attemptsOf_congr (finish_attempts _)]
    refine ⟨mem_readyWhere ((mem_setStep (db.setAttempt attempt.attemptId f) h.ledger.step_ids
      hh.step_mem).mpr (Or.inr ⟨hs, hne⟩)) ?_, ?_⟩
    · simp [Db.isReleased, hsucc]
    · rw [attemptsOf_congr (readyWhere_attempts _ _), attemptsOf_congr (setStep_attempts _ _ _)]
      exact attemptsOf_setAttempt_other hk h.ledger.attempt_ids
        hh.attempt_mem (by rw [hh.same]; exact hne.symm)
  | @resume step g _ hstep hwait hk _ _ _ _ =>
    have hne := hother step hstep (by rw [hwait]; decide)
    exact ⟨(mem_setStep db h.ledger.step_ids hstep).mpr (Or.inr ⟨hs, hne⟩), rfl⟩

theorem frozen_run (h : Inv db) (hs : s ∈ db.steps)
    (hsucc : s.state = .succeeded) (es : List Event) :
    s ∈ (Lib.run next db es).steps ∧ (Lib.run next db es).attemptsOf s.stepId
        = db.attemptsOf s.stepId := by
  induction es generalizing db with
  | nil => exact ⟨hs, rfl⟩
  | cons e es ih =>
    have hnext : s ∈ (next e db).steps
        ∧ (next e db).attemptsOf s.stepId = db.attemptsOf s.stepId := by
      rcases next_cases h e with heq | hc
      · rw [heq]
        exact ⟨hs, rfl⟩
      · exact hc.frozen h hs hsucc
    obtain ⟨hmem, hatt⟩ := ih (h.next e) hnext.1
    exact ⟨hmem, hatt.trans hnext.2⟩

-- ==== fencing

theorem Inv.one_live (h : Inv db) : ∀ s ∈ db.steps, ∀ t ∈ db.steps,
    s.state.live = true → t.state.live = true → s = t := by
  intro s hs t ht hls hlt
  exact h.step_eq hs ht (h.runOk.one_busy s hs t ht (busy_of_live hls) (busy_of_live hlt))

/-- The succeeded attempt of a step is one, and its step has
succeeded. -/
theorem Inv.one_succeeded (h : Inv db) (hs : s ∈ db.steps) {a b : AttemptRow}
    (ha : a ∈ db.attemptsOf s.stepId) (hb : b ∈ db.attemptsOf s.stepId) (hsa : a.state = .succeeded)
    (hsb : b.state = .succeeded) : a = b ∧ s.state = .succeeded := by
  have hok := h.ledger.step_ok s hs
  obtain ⟨hsucc, earlier, hatt⟩ := hok.succeeded_latest ha hsa
  obtain ⟨-, earlier', hatt'⟩ := hok.succeeded_latest hb hsb
  rw [hatt] at hatt'
  have hab := (List.append_inj' hatt' rfl).2
  exact ⟨(List.cons.inj hab).1, hsucc⟩

/-- Fencing and single completion, in every reachable state: at most one
step is live; fences and attempt numbers count the attempts; at most one
attempt of a step succeeds, and then neither the step nor its attempts
ever change; and a claim that is not current changes nothing. -/
theorem fencing (h : Reachable Anytime db) :
    (∀ s ∈ db.steps, ∀ t ∈ db.steps, s.state.live = true → t.state.live = true → s = t)
      ∧ (∀ s ∈ db.steps, s.currentFence = (db.attemptsOf s.stepId).length
          ∧ (db.attemptsOf s.stepId).map (·.attemptNo)
            = List.range' 1 (db.attemptsOf s.stepId).length
          ∧ (db.attemptsOf s.stepId).map (·.fenceToken)
            = List.range' 1 (db.attemptsOf s.stepId).length)
      ∧ (∀ s ∈ db.steps, ∀ a ∈ db.attemptsOf s.stepId, a.state = .succeeded →
          (∀ b ∈ db.attemptsOf s.stepId, b.state = .succeeded → b = a)
          ∧ ∀ es, s ∈ (Lib.run next db es).steps
            ∧ (Lib.run next db es).attemptsOf s.stepId = db.attemptsOf s.stepId)
      ∧ ∀ e claim, e.claim = some claim → ¬ Current claim db →
        (∃ err, e.tx.outcome db = .error err) ∧ next e db = db := by
  have hinv := reachable_inv h
  refine ⟨hinv.one_live, fun s hs => ?_, fun s hs a ha hsa => ⟨?_, ?_⟩, fun e claim he hstale => ?_⟩
  · have hok := hinv.ledger.step_ok s hs
    exact ⟨hok.fence, hok.numbers, hok.fences⟩
  · intro b hb hsb
    exact (hinv.one_succeeded hs hb ha hsb hsa).1
  · exact frozen_run hinv hs (hinv.one_succeeded hs ha ha hsa hsa).2
  · obtain ⟨err, herr⟩ := stale_claim_raises he hstale
    exact ⟨⟨err, herr⟩, Tx.commit_error herr⟩

/-- The claim of a finished attempt, presented once more. -/
theorem fencing_solo :
    let claim : AttemptClaim := ⟨7, 1, 1, "settle", 1, 1, "worker", 1000000⟩
    let done := Lib.run next (soloRun .none)
      [.startRun 1, .claimNext true 7 none "worker" 1000000 none,
        .startAttempt claim, .succeedAttempt claim]
    ∃ err, (Event.succeedAttempt claim).tx.outcome done = .error err := by
  intro claim done
  have hreach : Reachable Anytime done :=
    Reachable.run (.start (soloRun_scheduled .none (by decide))) _
  have hstale : ¬ Current claim done := by
    rintro ⟨step, hstep, -, -, -, hcur, -⟩
    have hnone : ∀ s ∈ done.steps, s.currentAttemptId = none := by decide
    rw [hnone step hstep] at hcur
    cases hcur
  exact ((fencing hreach).2.2.2 (.succeedAttempt claim) claim rfl hstale).1

end MarketRegimeAlpha.Runtime
