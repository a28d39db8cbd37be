/-
The specification of each operation, under the invariant: what it
raises, and which change it commits.

`Proper` is what nearly every operation does: it raises an error of its
own, returns with the rows as they were, or commits a `Change`; it is
never the database that refuses. Each operation has one lemma, and no
later proof unfolds an operation.

The proofs run a transaction forward. `lockLiveClaim_outcome` hands out
the rows a live claim holds; `update_step`, `update_attempt` and
`update_run` pass an update that matches one row and whose guard
accepts, and leave the state as a row update of `Changes.lean`.
-/
import MarketRegimeAlpha.Runtime.Proofs.RunState

namespace MarketRegimeAlpha.Runtime

open Lib List

/-- The invariant of every reachable state. -/
structure Inv (db : Db) : Prop where
  ledger : Ledger db
  runOk : RunOk db
  ranked : ∃ rank : Nat → Nat, ∀ d ∈ db.dependencies,
    rank d.predecessorStepId < rank d.successorStepId

variable {α : Type}

/-- What an operation may do to the rows: raise, leave them, or commit a
change. The database refuses none of its updates. -/
inductive Proper (db : Db) (resumed : Option Nat) : Except RuntimeError (α × Db) → Prop
  | raises {e : RuntimeError} : ¬ e.Rejects → Proper db resumed (.error e)
  | unchanged {a : α} : Proper db resumed (.ok (a, db))
  | changes {a : α} {db' : Db} : Change db resumed db' → Proper db resumed (.ok (a, db'))

/-- No error but the two kinds a guarded update ends with is a
rejection. -/
theorem not_rejects {e : RuntimeError} (h₁ : ∀ rejection, e ≠ .guardRejected rejection)
    (h₂ : e ≠ .checkViolation "runtime_step_current_attempt_ck") :
    ¬ e.Rejects := by
  rintro (⟨rejection, h⟩ | h)
  · exact h₁ rejection h
  · exact h₂ h

-- ==== the forward rules

section Rules

variable {db : Db} {β : Type} {step : StepRow}

theorem update_step (db : Db) (hids : (db.steps.map (·.stepId)).Nodup) (hstep : step ∈ db.steps)
    {p : StepRow → Bool} {g : StepRow → StepRow} (hp : p step = true)
    (hkey : ∀ s ∈ db.steps, p s = true → s.stepId = step.stepId)
    (hacc : stepTable.guard step (g step) = none) (k : List StepRow → RuntimeTx β) :
    (Tx.update stepTable p g >>= k).outcome db = (k [g step]).outcome (db.setStep step.stepId g) :=
  Tx.outcome_update_one (T := stepTable) hids hstep hp hkey hacc k

variable {attempt : AttemptRow} {runId : Nat}

theorem update_attempt (db : Db) (hids : (db.attempts.map (·.attemptId)).Nodup)
    (hattempt : attempt ∈ db.attempts) {p : AttemptRow → Bool} {f : AttemptRow → AttemptRow}
    (hp : p attempt = true) (hkey : ∀ a ∈ db.attempts, p a = true → a.attemptId = attempt.attemptId)
    (hacc : attemptTable.guard attempt (f attempt) = none) (k : List AttemptRow → RuntimeTx β) :
    (Tx.update attemptTable p f >>= k).outcome db
      = (k [f attempt]).outcome (db.setAttempt attempt.attemptId f) :=
  Tx.outcome_update_one (T := attemptTable) hids hattempt hp hkey hacc k

theorem update_run (db : Db) {source : Option RunState} {target : RunState}
    (hid : db.run.runId = runId) (hsource : source.all (db.run.state == ·) = true)
    (hedge : (db.run.state, target) ∈ runAllowed) (k : List RunRow → RuntimeTx β) :
    (updateRun runId source target >>= k).outcome db
      = (k [(db.setRun target).run]).outcome (db.setRun target) := by
  unfold updateRun
  have hp : (db.run.runId == runId && source.all (db.run.state == ·)) = true := by
    rw [hsource, hid, beq_self_eq_true]
    rfl
  have hkey : ∀ r ∈ runTable.rows db, (r.runId == runId && source.all (r.state == ·)) = true →
        r.runId = db.run.runId := by
    intro r hr _
    rw [mem_singleton.mp hr]
  have hnd : ((runTable.rows db).map (·.runId)).Nodup := nodup_singleton db.run.runId
  rw [Tx.outcome_update_one hnd (mem_singleton.mpr rfl) hp hkey (runTable_accept hedge)]
  have hput : runTable.put (setRows (fun r => r.runId == db.run.runId)
      (fun r => { r with state := target, version := r.version + 1 })
      (runTable.rows db)) db = db.setRun target := by
    simp [runTable, setRows, Db.setRun]
  rw [hput]
  rfl

theorem settleRun_outcome (db : Db) (hrun : db.run.state = .running)
    (hid : db.run.runId = runId) (t : StepState) (k : List RunRow → RuntimeTx β) :
    (settleRun runId t >>= k).outcome db = (k [(db.settle t).run]).outcome (db.settle t) := by
  have hedge : ∀ target, target = .waiting ∨ target = .failed →
      (db.run.state, target) ∈ runAllowed := by
    intro target ht
    rw [hrun]
    rcases ht with rfl | rfl <;> decide
  have hsource : (some RunState.running).all (db.run.state == ·) = true := by
    rw [hrun]
    rfl
  cases t with
  | waiting => exact update_run db hid hsource (hedge _ (Or.inl rfl)) k
  | failed => exact update_run db hid hsource (hedge _ (Or.inr rfl)) k
  | _ =>
    unfold settleRun
    rw [Tx.outcome_select, if_pos hid]
    rfl

theorem findAttempt_some {attemptId : Nat} (h : db.findAttempt attemptId = some (step, attempt)) :
    attempt ∈ db.attempts ∧ attempt.attemptId = attemptId
      ∧ step ∈ db.steps ∧ attempt.stepId = step.stepId := by
  unfold Db.findAttempt at h
  split at h
  · cases h
  · next a ha =>
      split at h
      · cases h
      · next s hs =>
          injection h with h
          injection h with h₁ h₂
          subst h₁ h₂
          have hid := find?_some ha
          have hsame := find?_some hs
          rw [beq_iff_eq] at hid hsame
          exact ⟨mem_of_find?_eq_some ha, hid, mem_of_find?_eq_some hs, hsame.symm⟩

theorem findAttempt_of_mem (h : Ledger db) (hattempt : attempt ∈ db.attempts)
    (hstep : step ∈ db.steps) (hsame : attempt.stepId = step.stepId) :
    db.findAttempt attempt.attemptId = some (step, attempt) := by
  have ha : db.attempts.find? (·.attemptId == attempt.attemptId) = some attempt :=
    find?_keyed h.attempt_ids hattempt (beq_iff_eq.mpr rfl) fun _ _ hx => beq_iff_eq.mp hx
  have hs : db.steps.find? (·.stepId == attempt.stepId) = some step :=
    find?_keyed h.step_ids hstep (beq_iff_eq.mpr hsame.symm)
      fun _ _ hx => (beq_iff_eq.mp hx).trans hsame
  unfold Db.findAttempt
  rw [ha]
  dsimp only
  rw [hs]

/-- The rows a claim holds: its attempt is live, current and fenced as
the claim says, its lease has not run out, and the run is running. -/
structure Owns (db : Db) (claim : AttemptClaim) (step : StepRow) (attempt : AttemptRow) : Prop where
  held : Held db step attempt
  attemptId : attempt.attemptId = claim.attemptId
  runId : db.run.runId = claim.runId
  stepId : step.stepId = claim.stepId
  fenceToken : attempt.fenceToken = claim.fenceToken
  leaseOwner : attempt.leaseOwner = claim.leaseOwner
  current : step.currentAttemptId = some claim.attemptId
  currentFence : step.currentFence = claim.fenceToken
  stepKey : step.stepKey = claim.stepKey
  lease : db.clock < attempt.leaseUntil

def StaleError (attemptId : Nat) (e : RuntimeError) : Prop :=
  e = .notLiveFence attemptId ∨ e = .malformedUuid ∨ e = .leaseExpired attemptId

theorem StaleError.not_rejects {i : Nat} {e : RuntimeError} (h : StaleError i e) : ¬ e.Rejects := by
  rcases h with rfl | rfl | rfl <;>
    exact Runtime.not_rejects (fun _ h => by cases h) (fun h => by cases h)

/-- `_lock_live_claim` either finds the claim stale, or hands out the
rows it holds. -/
theorem lockLiveClaim_outcome (db : Db) (claim : AttemptClaim) (required : Option AttemptState)
    (hlive : ∀ s, required = some s → s.live = true) :
    (∃ e, (lockLiveClaim claim required).outcome db = .error e ∧ StaleError claim.attemptId e)
      ∨ ∃ step attempt, Owns db claim step attempt ∧ (∀ s, required = some s → attempt.state = s)
        ∧ (lockLiveClaim claim required).outcome db = .ok ((step, attempt), db) := by
  unfold lockLiveClaim
  rw [Tx.outcome_get]
  cases hfind : db.findAttempt claim.attemptId with
  | none => exact Or.inl ⟨_, rfl, Or.inl rfl⟩
  | some row =>
    obtain ⟨step, attempt⟩ := row
    obtain ⟨hattempt, hid, hstep, hsame⟩ := findAttempt_some hfind
    simp only [Tx.outcome_require]
    split
    · next h₁ =>
        obtain ⟨hrunId, hrun, hstepId, hstate, htoken, howner⟩ := h₁
        split
        · split
          · next h₃ =>
              obtain ⟨hcur, hfence, hstepKey⟩ := h₃
              split
              · next hlease =>
                  have hstate' : (∀ s, required = some s →
                      attempt.state = s) ∧ attempt.state.live = true := by
                    cases required with
                    | none => exact ⟨nofun, hstate⟩
                    | some s =>
                      have hs : attempt.state = s := beq_iff_eq.mp hstate
                      refine ⟨fun t ht => ?_, ?_⟩
                      · rw [hs, Option.some.inj ht]
                      · rw [hs]
                        exact hlive s rfl
                  exact Or.inr ⟨step, attempt, ⟨⟨hrun, hstep, hattempt,
                    hsame, hstate'.2⟩, hid, hrunId, hstepId, htoken,
                    howner, hcur, hfence, hstepKey, hlease⟩, hstate'.1,
                    rfl⟩
              · exact Or.inl ⟨_, rfl, Or.inr (Or.inr rfl)⟩
          · exact Or.inl ⟨_, rfl, Or.inl rfl⟩
        · exact Or.inl ⟨_, rfl, Or.inr (Or.inl rfl)⟩
    · exact Or.inl ⟨_, rfl, Or.inl rfl⟩

variable {claim : AttemptClaim}

theorem Owns.lock (h : Ledger db) (howns : Owns db claim step attempt)
    {required : Option AttemptState} (hstate : ∀ s, required = some s → attempt.state = s) :
    (lockLiveClaim claim required).outcome db = .ok ((step, attempt), db) := by
  have hfind := findAttempt_of_mem h howns.held.attempt_mem howns.held.step_mem howns.held.same
  have hexpected : expectedAttemptState required attempt.state = true := by
    cases required with
    | none => exact howns.held.live
    | some s => exact beq_iff_eq.mpr (hstate s rfl)
  unfold lockLiveClaim
  rw [Tx.outcome_get, ← howns.attemptId, hfind]
  rw [Tx.outcome_require_pos ⟨howns.runId, howns.held.running, howns.stepId,
      hexpected, howns.fenceToken, howns.leaseOwner⟩,
    Tx.outcome_require_pos (by rw [howns.current]; rfl),
    Tx.outcome_require_pos ⟨by rw [howns.current, howns.attemptId],
      howns.currentFence, howns.stepKey⟩,
    Tx.outcome_require_pos howns.lease]
  rfl

theorem Owns.unique (h : Ledger db) {step step' : StepRow} {attempt attempt' : AttemptRow}
    (howns : Owns db claim step attempt)
    (howns' : Owns db claim step' attempt') : attempt' = attempt :=
  inj_on_of_nodup_map h.attempt_ids howns'.held.attempt_mem
    howns.held.attempt_mem (howns'.attemptId.trans howns.attemptId.symm)

theorem heldAt_iff {i a f : Nat} : heldAt i a f step = true ↔ step.stepId = i
      ∧ step.currentAttemptId = some a ∧ step.currentFence = f := by
  unfold heldAt
  simp only [Bool.and_eq_true, beq_iff_eq, and_assoc]

/-- The `WHERE` of a claim's step matches the step it holds. -/
theorem Owns.heldBy (h : Owns db claim step attempt) : heldBy claim step = true :=
  heldAt_iff.mpr ⟨h.stepId, h.current, h.currentFence⟩

theorem heldBy_stepId (h : heldBy claim step = true) : step.stepId = claim.stepId :=
  (heldAt_iff.mp h).1

/-- The state of a step is the state of the live attempt that holds
it. -/
theorem Ledger.held_state (h : Ledger db) (hheld : Held db step attempt) :
    (attempt.state = .claimed → step.state = .claimed)
      ∧ (attempt.state = .running → step.state = .running) := by
  obtain ⟨-, -, hfits, -⟩ := h.held hheld
  rcases fits_live hfits hheld.live with ⟨hs, ha⟩ | ⟨hs, ha⟩
  · refine ⟨fun _ => hs, fun ha' => ?_⟩
    rw [ha] at ha'
    cases ha'
  · refine ⟨fun ha' => ?_, fun _ => hs⟩
    rw [ha] at ha'
    cases ha'

end Rules

-- ==== start_run, resume

theorem makeReady_accept {step : StepRow} {attempts : List AttemptRow} (h : StepOk step attempts)
    (hstate : step.state = .pending ∨ step.state = .waiting) (clock : Int) :
    stepTable.guard step (makeReady clock step) = none := by
  have hlive : step.state.live = false := by rcases hstate with hs | hs <;> rw [hs] <;> rfl
  refine stepTable_accept step.state .ready rfl rfl ?_ ?_ rfl rfl rfl ?_
  · rcases hstate with hs | hs <;> rw [hs] <;> decide
  · rcases hstate with hs | hs <;> rw [hs] <;> decide
  · show step.currentAttemptId.isSome = false
    rw [(h.not_live hlive).2]
    rfl

/-- `start_run` on a queued run readies its roots. -/
theorem startRun_proper {db : Db} (h : Inv db) (runId : Nat) :
    Proper db none ((startRun runId).outcome db) := by
  unfold startRun
  rw [Tx.outcome_get]
  simp only [Tx.outcome_require]
  split
  · next hid =>
      split
      · next hq =>
          rw [update_run db hid (by rw [hq]; rfl) (by rw [hq]; decide)]
          have hacc : ∀ s ∈ stepTable.rows (db.setRun .running),
              (s.state == .pending && !db.hasDependency s.stepId) = true →
              stepTable.guard s (makeReady db.clock s) = none := by
            intro s hs hp
            have hpend := beq_iff_eq.mp (Bool.and_eq_true_iff.mp hp).1
            exact makeReady_accept (h.ledger.step_ok s hs) (Or.inl hpend) _
          simp only [head?_cons]
          rw [Tx.outcome_update hacc]
          exact .changes (.start hq)
      · exact .raises (not_rejects nofun nofun)
  · exact .raises (not_rejects nofun nofun)

/-- `resume_waiting_step` sends the waiting step back to the queue. -/
theorem resumeWaitingStep_proper {db : Db} (h : Inv db) (runId stepId : Nat) (code : String) :
    Proper db (some stepId) ((resumeWaitingStep runId stepId code).outcome db) := by
  unfold resumeWaitingStep
  rw [Tx.outcome_get]
  cases hfind : db.steps.find? (·.stepId == stepId) with
  | none => exact .raises (not_rejects nofun nofun)
  | some step =>
    have hstep := mem_of_find?_eq_some hfind
    have hid := find?_some hfind
    simp only [Tx.outcome_require]
    split
    · next hrun =>
        split
        · next hw =>
            obtain ⟨hrw, hsw⟩ := hw
            have hkey : ∀ s ∈ db.steps, (s.stepId == stepId) = true → s.stepId = step.stepId := by
              intro s _ hs
              rw [beq_iff_eq.mp hs, beq_iff_eq.mp hid]
            rw [update_step db h.ledger.step_ids hstep hid hkey
              (makeReady_accept (h.ledger.step_ok step hstep) (Or.inr hsw) db.clock),
              update_run (db.setStep step.stepId (makeReady db.clock))
                hrun rfl (by rw [setStep_run, hrw]; decide)]
            have hchange := Change.resume (g := makeReady db.clock) hrw
              hstep hsw ⟨fun _ => rfl, fun _ => rfl⟩ rfl rfl rfl rfl
            rw [beq_iff_eq.mp hid] at hchange
            rw [beq_iff_eq.mp hid]
            exact .changes hchange
        · exact .raises (not_rejects nofun nofun)
    · exact .raises (not_rejects nofun nofun)

-- ==== start_attempt, heartbeats

section Claims

variable {db : Db} (h : Inv db) (claim : AttemptClaim)

include h

/-- `start_attempt` moves a claimed attempt and its step to running. -/
theorem startAttempt_proper : Proper db none ((startAttempt claim).outcome db) := by
  unfold startAttempt
  rcases lockLiveClaim_outcome db claim (some .claimed)
    (fun s hs => by rw [← Option.some.inj hs]; rfl) with
    ⟨e, he, hstale⟩ | ⟨step, attempt, howns, hstate, hout⟩
  · rw [Tx.outcome_bind_error he]
    exact .raises hstale.not_rejects
  · have hattempt : attempt.state = .claimed := hstate _ rfl
    have hstep := (h.ledger.held_state howns.held).1 hattempt
    obtain ⟨-, -, -, hcur⟩ := h.ledger.held howns.held
    rw [Tx.outcome_bind_ok hout, Tx.outcome_get]
    unfold updateAttempt
    rw [update_attempt db h.ledger.attempt_ids howns.held.attempt_mem
        (by simp [howns.attemptId, hattempt, howns.lease])
        (fun a _ ha => by
          simp only [Bool.and_eq_true, beq_iff_eq] at ha
          rw [ha.1.1, howns.attemptId])
        (attemptTable_accept .claimed .running hattempt rfl (by decide) rfl),
      update_step (db.setAttempt attempt.attemptId (withState .running))
        h.ledger.step_ids howns.held.step_mem
        (by simp [howns.heldBy, hstep])
        (fun s _ hs => by
          rw [Bool.and_eq_true] at hs
          rw [heldBy_stepId hs.1, howns.stepId])
        (stepTable_accept .claimed .running hstep rfl (by decide) (by decide) rfl rfl rfl (by
            show step.currentAttemptId.isSome = true
            rw [hcur]
            rfl))]
    exact .changes (.move (f := withState .running) (g := markRunning)
      howns.held ⟨fun _ => rfl, fun _ => rfl⟩
      (h.ledger.heartbeat attempt howns.held.attempt_mem) rfl hcur rfl
      nofun nofun)

/-- A duration that `_lease_milliseconds` takes. -/
def ValidLease (lease : Int) : Prop := 0 < lease ∧ lease ≤ day ∧ 0 < wholeMilliseconds lease

omit h in
theorem leaseMilliseconds_outcome (db : Db) (duration : Int) :
    (∃ e, (leaseMilliseconds duration).outcome db = .error e
        ∧ (e = .leaseTooShort ∨ e = .leaseTooLong)
        ∧ ¬ ValidLease duration)
      ∨ (ValidLease duration ∧ (leaseMilliseconds duration).outcome db
          = .ok (wholeMilliseconds duration, db)) := by
  unfold leaseMilliseconds
  simp only [Tx.outcome_require]
  split
  · next h₁ =>
      split
      · next h₂ => exact Or.inr ⟨⟨h₁.1, h₂, h₁.2⟩, rfl⟩
      · next h₂ => exact Or.inl ⟨_, rfl, Or.inr rfl, fun hv => h₂ hv.2.1⟩
  · next h₁ => exact Or.inl ⟨_, rfl, Or.inl rfl, fun hv => h₁ ⟨hv.1, hv.2.2⟩⟩

/-- The heartbeat comes from the live owner at the very clock reading of
its last one. -/
def BeatsTwice (claim : AttemptClaim) (db : Db) : Prop :=
  ∃ step attempt, Owns db claim step attempt ∧ attempt.lastHeartbeatAt = db.clock

/-- A heartbeat extends the lease of the attempt its claim holds, unless
the clock has not moved since the last one: then the guard refuses it. -/
theorem heartbeatAttempt_outcome (lease : Int) :
    (Proper db none ((heartbeatAttempt claim lease).outcome db)
        ∧ ¬ (ValidLease lease ∧ BeatsTwice claim db))
      ∨ (ValidLease lease ∧ BeatsTwice claim db ∧ (heartbeatAttempt claim lease).outcome db
          = .error (.guardRejected .heartbeat)) := by
  unfold heartbeatAttempt
  rcases leaseMilliseconds_outcome db lease with
    ⟨e, he, hlease, hinvalid⟩ | ⟨hvalid, hms_out⟩
  · left
    refine ⟨?_, fun hv => hinvalid hv.1⟩
    rw [Tx.outcome_bind_error he]
    rcases hlease with rfl | rfl <;> exact .raises (not_rejects nofun nofun)
  · rw [Tx.outcome_bind_ok hms_out]
    rcases lockLiveClaim_outcome db claim none nofun with
      ⟨e, he, hstale⟩ | ⟨step, attempt, howns, -, hout⟩
    · left
      rw [Tx.outcome_bind_error he]
      refine ⟨.raises hstale.not_rejects, ?_⟩
      rintro ⟨-, step, attempt, howns, -⟩
      have hnone : ∀ s, (none : Option AttemptState) = some s → attempt.state = s := nofun
      rw [howns.lock h.ledger hnone] at he
      cases he
    · obtain ⟨-, -, hfits, hcur⟩ := h.ledger.held howns.held
      have hbeat := h.ledger.heartbeat attempt howns.held.attempt_mem
      rw [Tx.outcome_bind_ok hout, Tx.outcome_get]
      have hp : (attempt.attemptId == claim.attemptId && attempt.state.live
          && decide (db.clock < attempt.leaseUntil)) = true := by
        simp [howns.attemptId, howns.held.live, howns.lease]
      have hkey : ∀ a ∈ db.attempts, (a.attemptId == claim.attemptId
          && a.state.live && decide (db.clock < a.leaseUntil)) = true →
            a.attemptId = attempt.attemptId := by
        intro a _ ha
        simp only [Bool.and_eq_true, beq_iff_eq] at ha
        rw [ha.1.1, howns.attemptId]
      by_cases hsame : attempt.lastHeartbeatAt = db.clock
      · right
        refine ⟨hvalid, ⟨step, attempt, howns, hsame⟩, ?_⟩
        have hrej : attemptTable.guard attempt (beat db.clock (wholeMilliseconds lease) attempt)
              = some (.guardRejected .heartbeat) := by
          simp [attemptTable, guardRuntimeAttemptUpdate, beat, howns.held.live, hsame]
        exact Tx.outcome_update_reject hrej (filter_keyed
          h.ledger.attempt_ids howns.held.attempt_mem hp hkey) _
      · left
        have hlt : ¬ db.clock ≤ attempt.lastHeartbeatAt := by omega
        have hgt : ¬ max (attempt.leaseUntil + 1)
            (db.clock + wholeMilliseconds lease * 1000) ≤ attempt.leaseUntil := by omega
        have hacc : attemptTable.guard attempt
            (beat db.clock (wholeMilliseconds lease) attempt) = none := by
          simp only [attemptTable, guardRuntimeAttemptUpdate, beat, howns.held.live, hlt, hgt]
          simp
        rw [update_attempt db h.ledger.attempt_ids howns.held.attempt_mem hp hkey hacc]
        have hstep : step.state.live = true := by
          rcases fits_live hfits howns.held.live with ⟨hs, -⟩ | ⟨hs, -⟩ <;> rw [hs] <;> rfl
        have hne : ∀ t : StepState, t.live = false → step.state ≠ t := by
          intro t ht hst
          rw [hst, ht] at hstep
          cases hstep
        have hcur' : step.currentAttemptId
            = currentOf (beat db.clock (wholeMilliseconds lease) attempt) :=
          hcur.trans (if_pos howns.held.live).symm
        have hmove := Change.move (g := id)
          (f := beat db.clock (wholeMilliseconds lease)) howns.held
          ⟨fun _ => rfl, fun _ => rfl⟩ (Int.le_refl _) rfl hcur' hfits
          (fun hr => absurd hr (hne .ready rfl)) (hne .succeeded rfl)
        rw [setStep_id, id, settle_live _ hstep] at hmove
        refine ⟨.changes hmove, ?_⟩
        rintro ⟨-, step', attempt', howns', hsame'⟩
        rw [howns.unique h.ledger howns'] at hsame'
        exact hsame hsame'

omit h in
/-- `_release_ready_successors` readies what it may. -/
theorem releaseReadySuccessors_outcome {db : Db} (h : Ledger db) :
    releaseReadySuccessors.outcome db = .ok ((), db.readyWhere db.isReleased) := by
  unfold releaseReadySuccessors
  rw [Tx.outcome_get]
  have hacc : ∀ s ∈ stepTable.rows db, (s.state == .pending
      && db.hasDependency s.stepId && !db.hasUnmetDependency s.stepId)
        = true → stepTable.guard s (makeReady db.clock s) = none := by
    intro s hs hp
    simp only [Bool.and_eq_true, beq_iff_eq] at hp
    exact makeReady_accept (h.step_ok s hs) (Or.inl hp.1.1) _
  rw [Tx.outcome_update hacc]
  rfl

omit h in
theorem finishRunIfComplete_outcome (db : Db) (runId : Nat)
    (hid : db.run.runId = runId) (hrun : db.run.state = .running) :
    ∃ version, (finishRunIfComplete runId).outcome db = .ok (version, db.finish) := by
  unfold finishRunIfComplete Db.finish
  rw [Tx.outcome_get, Tx.outcome_require_pos hid]
  by_cases hc : db.complete = true
  · rw [if_pos hc]
    unfold Db.complete at hc
    rw [if_pos hc, update_run db hid (by rw [hrun]; rfl) (by rw [hrun]; decide)]
    exact ⟨_, rfl⟩
  · rw [if_neg hc]
    unfold Db.complete at hc
    rw [if_neg hc]
    exact ⟨_, rfl⟩

/-- `succeed_attempt` completes the running step. -/
theorem succeedAttempt_proper : Proper db none ((succeedAttempt claim).outcome db) := by
  unfold succeedAttempt
  rcases lockLiveClaim_outcome db claim (some .running)
    (fun s hs => by rw [← Option.some.inj hs]; rfl) with
    ⟨e, he, hstale⟩ | ⟨step, attempt, howns, hstate, hout⟩
  · rw [Tx.outcome_bind_error he]
    exact .raises hstale.not_rejects
  · have hattempt : attempt.state = .running := hstate _ rfl
    have hstep := (h.ledger.held_state howns.held).2 hattempt
    rw [Tx.outcome_bind_ok hout, Tx.outcome_get]
    unfold updateAttempt
    rw [update_attempt db h.ledger.attempt_ids howns.held.attempt_mem
        (by simp [howns.attemptId, hattempt, howns.lease])
        (fun a _ ha => by
          simp only [Bool.and_eq_true, beq_iff_eq] at ha
          rw [ha.1.1, howns.attemptId])
        (attemptTable_accept .running .succeeded hattempt rfl (by decide)
          rfl),
      update_step (db.setAttempt attempt.attemptId (withState .succeeded))
        h.ledger.step_ids howns.held.step_mem
        (by simp [howns.heldBy, hstep])
        (fun s _ hs => by
          rw [Bool.and_eq_true] at hs
          rw [heldBy_stepId hs.1, howns.stepId])
        (stepTable_accept .running .succeeded hstep rfl (by decide) (by decide) rfl rfl rfl rfl)]
    have hchange := Change.complete (f := withState .succeeded)
      (g := takeBack .succeeded db.clock) howns.held
      ⟨fun _ => rfl, fun _ => rfl⟩
      (h.ledger.heartbeat attempt howns.held.attempt_mem) rfl rfl rfl rfl
      rfl
    have hledger : Ledger ((db.setAttempt attempt.attemptId
        (withState .succeeded)).setStep step.stepId (takeBack .succeeded db.clock)) :=
      h.ledger.move howns.held ⟨fun _ => rfl, fun _ => rfl⟩
        (h.ledger.heartbeat attempt howns.held.attempt_mem) rfl rfl rfl nofun
    generalize hdb₁ : (db.setAttempt attempt.attemptId (withState .succeeded)).setStep step.stepId
        (takeBack .succeeded db.clock) = db₁ at hchange hledger ⊢
    have hrun : db₁.run = db.run := by rw [← hdb₁]; rfl
    simp only [head?_cons]
    obtain ⟨version, hfinish⟩ := finishRunIfComplete_outcome
      (db₁.readyWhere db₁.isReleased) claim.runId
      (by rw [readyWhere_run, hrun]; exact howns.runId)
      (by rw [readyWhere_run, hrun]; exact howns.held.running)
    rw [Tx.outcome_bind_ok (releaseReadySuccessors_outcome hledger), Tx.outcome_bind_ok hfinish]
    exact .changes hchange

end Claims

-- ==== settling an attempt: fail, recover

/-- A verdict that follows the edges out of a held step. -/
structure Settles (step : StepRow) (attempt : AttemptRow) (v : Verdict) : Prop where
  attempt_edge : (attempt.state, v.attemptState) ∈ attemptAllowed
  step_edge : (step.state, v.stepState) ∈ stepAllowed
  fits : fits v.stepState v.attemptState = true
  budget : v.stepState = .ready → attempt.attemptNo < step.maxAttempts
  left : v.stepState.live = false
  unfinished : v.stepState ≠ .succeeded

section Settling

variable {db : Db} (h : Inv db) {step : StepRow} {attempt : AttemptRow}
  (hheld : Held db step attempt) {v : Verdict} (hv : Settles step attempt v)

include h hheld hv

theorem Settles.change (readyAt : Int) : Change db none (((db.setAttempt attempt.attemptId
      (withState v.attemptState)).setStep step.stepId
        (takeBack v.stepState readyAt)).settle v.stepState) := by
  have hcur : (takeBack v.stepState readyAt step).currentAttemptId
      = currentOf (withState v.attemptState attempt) := by
    have hdead : v.attemptState.live = false := by
      have hfits := hv.fits
      have hleft := hv.left
      revert hfits hleft
      cases v.stepState <;> cases v.attemptState <;> decide
    simp [takeBack, currentOf, withState, hdead]
  exact .move (f := withState v.attemptState) (g := takeBack v.stepState readyAt) hheld
    ⟨fun _ => rfl, fun _ => rfl⟩
    (h.ledger.heartbeat attempt hheld.attempt_mem) rfl hcur hv.fits
    (fun hr => ⟨by
      have hr' : v.stepState = .ready := hr
      simp [takeBack, hr'], hv.budget hr⟩) hv.unfinished

theorem Settles.accept (readyAt : Int) :
    attemptTable.guard attempt (withState v.attemptState attempt) = none
      ∧ stepTable.guard step (takeBack v.stepState readyAt step) = none := by
  have hready : step.state ≠ .ready := by
    obtain ⟨-, -, hfits, -⟩ := h.ledger.held hheld
    rcases fits_live hfits hheld.live with ⟨hs, -⟩ | ⟨hs, -⟩ <;> rw [hs] <;> decide
  exact ⟨attemptTable_accept _ _ rfl rfl hv.attempt_edge rfl,
    stepTable_accept _ _ rfl rfl hv.step_edge hready rfl rfl rfl hv.left.symm⟩

end Settling

variable {step : StepRow} {attempt : AttemptRow} {db : Db}

/-- Whatever `fail_attempt` decides of a running attempt follows the
edges. -/
theorem failVerdict_settles (hstep : step.state = .running) (hattempt : attempt.state = .running)
    (errorCode : String) :
    Settles step attempt (failVerdict step attempt errorCode) := by
  unfold failVerdict
  split
  · exact ⟨by rw [hattempt]; decide, by rw [hstep]; decide, rfl, nofun, rfl,
      nofun⟩
  · split
    · next hbudget =>
        exact ⟨by rw [hattempt]; decide, by rw [hstep]; decide, rfl, fun _ => hbudget.2, rfl, nofun⟩
    · exact ⟨by rw [hattempt]; decide, by rw [hstep]; decide, rfl, nofun,
        rfl, nofun⟩

/-- `fail_attempt` settles the running attempt. -/
theorem failAttempt_proper (h : Inv db) (claim : AttemptClaim) (errorCode : String) :
    Proper db none ((failAttempt claim errorCode).outcome db) := by
  unfold failAttempt
  rcases lockLiveClaim_outcome db claim (some .running)
    (fun s hs => by rw [← Option.some.inj hs]; rfl) with
    ⟨e, he, hstale⟩ | ⟨step, attempt, howns, hstate, hout⟩
  · rw [Tx.outcome_bind_error he]
    exact .raises hstale.not_rejects
  · have hattempt : attempt.state = .running := hstate _ rfl
    have hstep := (h.ledger.held_state howns.held).2 hattempt
    have hv := failVerdict_settles hstep hattempt errorCode
    rw [Tx.outcome_bind_ok hout]
    rw [Tx.outcome_get]
    generalize failVerdict step attempt errorCode = v at hv ⊢
    have hid : (attempt.attemptId == claim.attemptId) = true := beq_iff_eq.mpr howns.attemptId
    unfold updateAttempt
    rw [update_attempt db h.ledger.attempt_ids howns.held.attempt_mem hid
        (fun a _ ha => by rw [beq_iff_eq.mp ha, howns.attemptId])
        (hv.accept h howns.held 0).1,
      update_step (db.setAttempt attempt.attemptId (withState v.attemptState))
        h.ledger.step_ids howns.held.step_mem howns.heldBy
        (fun s _ hs => by rw [heldBy_stepId hs, howns.stepId])
        (hv.accept h howns.held _).2]
    simp only [head?_cons]
    rw [settleRun_outcome ((db.setAttempt _ _).setStep _ _) howns.held.running howns.runId]
    exact .changes (hv.change h howns.held _)

/-- A claimed attempt on its step's last budget: what a recovery of it
decides is no edge. -/
def LastClaim (step : StepRow) (attempt : AttemptRow) : Prop :=
  attempt.state = .claimed ∧ step.maxAttempts ≤ attempt.attemptNo

/-- What `recover_expired_attempt` decides of a live attempt follows the
edges, unless it was claimed on the last budget. -/
theorem recoverVerdict_settles (hstates : (step.state = .claimed ∧ attempt.state = .claimed)
      ∨ (step.state = .running ∧ attempt.state = .running))
    (hlast : ¬ LastClaim step attempt) :
    Settles step attempt (recoverVerdict step attempt) := by
  unfold recoverVerdict
  split
  · next hremote =>
      have hs : step.state = .running := by
        rcases hstates with ⟨-, ha⟩ | ⟨hs, -⟩
        · rw [hremote.1] at ha
          cases ha
        · exact hs
      exact ⟨by rw [hremote.1]; decide, by rw [hs]; decide, rfl, nofun, rfl,
        nofun⟩
  · split
    · next hbudget =>
        refine ⟨?_, ?_, rfl, fun _ => hbudget, rfl, nofun⟩
        · rcases hstates with ⟨-, ha⟩ | ⟨-, ha⟩ <;> rw [ha] <;> decide
        · rcases hstates with ⟨hs, -⟩ | ⟨hs, -⟩ <;> rw [hs] <;> decide
    · next hbudget =>
        -- out of budget: only a running step may fail
        have hrun : step.state = .running ∧ attempt.state = .running := by
          rcases hstates with ⟨-, ha⟩ | hrun
          · exact absurd ⟨ha, Nat.le_of_not_lt hbudget⟩ hlast
          · exact hrun
        exact ⟨by rw [hrun.2]; decide, by rw [hrun.1]; decide, rfl, nofun,
          rfl, nofun⟩

theorem recoverVerdict_last (h : LastClaim step attempt) :
    recoverVerdict step attempt = ⟨.abandoned, .failed, "FAILED"⟩ := by
  have hstate : ¬ (attempt.state = .running ∧ attempt.externalEffectClass.remote = true) := by
    rw [h.1]
    exact nofun
  unfold recoverVerdict
  rw [if_neg hstate, if_neg (Nat.not_lt.mpr h.2)]

/-- The recovery takes an expired attempt from its step while it is
still claimed, and was claimed on the last budget. -/
def RecoversLastClaim (attemptId : Nat) (db : Db) : Prop :=
  ∃ step attempt, Held db step attempt ∧ attempt.attemptId = attemptId
    ∧ attempt.leaseUntil ≤ db.clock ∧ LastClaim step attempt

/-- A recovery settles an expired attempt, unless it was claimed on the
last budget: then the step guard refuses it. -/
theorem recoverExpiredAttempt_outcome (h : Inv db) (admitted : Bool) (attemptId : Nat) :
    (Proper db none ((recoverExpiredAttempt admitted attemptId).outcome db)
        ∧ (admitted = true → ∀ e, (recoverExpiredAttempt admitted attemptId).outcome db ≠ .error e)
        ∧ ¬ (admitted = true ∧ RecoversLastClaim attemptId db))
      ∨ (admitted = true ∧ RecoversLastClaim attemptId db
        ∧ (recoverExpiredAttempt admitted attemptId).outcome db
          = .error (.guardRejected (.stepTransition .claimed .failed))) := by
  unfold recoverExpiredAttempt admitRuntimeAttempt
  rw [Tx.outcome_get]
  -- the rows of a recovered last claim are the ones its id joins to
  have hjoin : RecoversLastClaim attemptId db → ∃ step attempt,
      db.findAttempt attemptId = some (step, attempt)
        ∧ Held db step attempt ∧ attempt.leaseUntil ≤ db.clock
        ∧ LastClaim step attempt := by
    rintro ⟨step, attempt, hheld, rfl, hlease, hlast⟩
    exact ⟨step, attempt, findAttempt_of_mem h.ledger hheld.attempt_mem
      hheld.step_mem hheld.same, hheld, hlease, hlast⟩
  cases hfind : db.findAttempt attemptId with
  | none =>
    refine Or.inl ⟨.unchanged, fun _ _ => by simp, fun hr => ?_⟩
    obtain ⟨_, _, hsome, -⟩ := hjoin hr.2
    rw [hfind] at hsome
    cases hsome
  | some row =>
    obtain ⟨step, attempt⟩ := row
    obtain ⟨hmem, hid, hstepMem, hsame⟩ := findAttempt_some hfind
    have hrows : RecoversLastClaim attemptId db → Held db step attempt
        ∧ attempt.leaseUntil ≤ db.clock ∧ LastClaim step attempt := by
      intro hr
      obtain ⟨step', attempt', hsome, hrest⟩ := hjoin hr
      rw [hfind] at hsome
      injection hsome with hsome
      injection hsome with h₁ h₂
      rw [h₁, h₂]
      exact hrest
    simp only [Tx.outcome_require]
    split
    · next hadm =>
        split
        · next hstop =>
            refine Or.inl ⟨.unchanged, fun _ _ => by simp, fun hr => ?_⟩
            obtain ⟨hheld, hlease, -⟩ := hrows hr.2
            obtain ⟨earlier, hatt, -, hcur⟩ := h.ledger.held hheld
            have hok := h.ledger.step_ok step hheld.step_mem
            rw [hatt] at hok
            have hfence := hok.latest_fence
            rcases hstop with hs | hs | hs | hs | hs
            · exact hs hheld.running
            · exact hs hheld.live
            · rw [hcur, hid] at hs
              exact hs rfl
            · exact hs hfence.symm
            · exact hs hlease
        · next hgo =>
            simp only [not_or, Decidable.not_not, ne_eq] at hgo
            obtain ⟨hrun, hlive, -, -, hlease⟩ := hgo
            have hheld : Held db step attempt := ⟨hrun, hstepMem, hmem, hsame, hlive⟩
            obtain ⟨-, -, hfits, -⟩ := h.ledger.held hheld
            have hstates := fits_live hfits hlive
            have haid : (attempt.attemptId == attemptId) = true := beq_iff_eq.mpr hid
            have hakey : ∀ a ∈ db.attempts, (a.attemptId == attemptId)
                = true → a.attemptId = attempt.attemptId :=
              fun a _ ha => by rw [beq_iff_eq.mp ha, hid]
            have hsid : (step.stepId == step.stepId) = true := beq_self_eq_true _
            have hskey : ∀ s ∈ db.steps, (s.stepId == step.stepId)
                = true → s.stepId = step.stepId :=
              fun s _ hs => beq_iff_eq.mp hs
            unfold updateAttempt
            by_cases hlast : LastClaim step attempt
            · right
              refine ⟨hadm, ⟨step, attempt, hheld, hid, hlease, hlast⟩, ?_⟩
              have hs : step.state = .claimed := by
                rcases hstates with ⟨hs, -⟩ | ⟨-, ha⟩
                · exact hs
                · rw [hlast.1] at ha
                  cases ha
              rw [recoverVerdict_last hlast, update_attempt db h.ledger.attempt_ids hmem haid hakey
                  (attemptTable_accept .claimed .abandoned hlast.1 rfl (by decide) rfl)]
              have hrej : stepTable.guard step
                  (takeBack .failed db.clock step) = some (.guardRejected
                    (.stepTransition .claimed .failed)) := by
                have hedge : (StepState.claimed, StepState.failed) ∉ stepAllowed := by decide
                simp [stepTable, guardRuntimeStepUpdate, takeBack, hs, hedge]
              exact Tx.outcome_update_reject (s := db.setAttempt attempt.attemptId
                  (withState .abandoned)) hrej
                (filter_keyed h.ledger.step_ids hstepMem hsid hskey) _
            · left
              have hv := recoverVerdict_settles hstates hlast
              generalize recoverVerdict step attempt = v at hv ⊢
              rw [update_attempt db h.ledger.attempt_ids hmem haid hakey (hv.accept h hheld 0).1,
                update_step (db.setAttempt attempt.attemptId (withState v.attemptState))
                  h.ledger.step_ids hstepMem hsid hskey
                  (hv.accept h hheld _).2,
                settleRun_outcome ((db.setAttempt _ _).setStep _ _) hrun (Eq.refl db.run.runId)]
              exact ⟨.changes (hv.change h hheld _), fun _ _ => by simp,
                fun hr => hlast (hrows hr.2).2.2⟩
    · next hadm =>
        left
        exact ⟨.raises (not_rejects (by simp) (by simp)), fun ha => absurd ha hadm, fun hr => hadm hr.1⟩

end MarketRegimeAlpha.Runtime
