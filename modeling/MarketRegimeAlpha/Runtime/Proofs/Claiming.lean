/-
The two operations that put an attempt on a step: `claim_next`, and the
deadline that claims, starts and fails a step in one transaction.

Both run the same prefix — the budget test, the insert with its
constraints, the claim — so the states they pass through all have the
form `attached`: the attempt appended and the step set. The two rules
`attached_step` and `attached_attempt` move such a state on by one
update. What each operation does is then an inductive list of cases,
`ClaimNext` and `ExpireDeadline`, with the inputs that lead to each.
-/
import MarketRegimeAlpha.Runtime.Proofs.Operations

namespace MarketRegimeAlpha.Runtime

open Lib List

-- ==== an attached attempt

/-- The state with an attempt appended and a step set. -/
def Db.attached (db : Db) (step : StepRow) (attempt : AttemptRow) (g : StepRow → StepRow) : Db :=
  (db.addAttempt attempt).setStep step.stepId g

section Attached

variable {db : Db} {β : Type} {step : StepRow} {attempt : AttemptRow} {g : StepRow → StepRow}

theorem attached_step (hids : (db.steps.map (·.stepId)).Nodup) (hstep : step ∈ db.steps)
    (hk : Keeps id g) {p : StepRow → Bool} {g' : StepRow → StepRow} (hp : p (g step) = true)
    (hkey : ∀ s, p s = true → s.stepId = step.stepId)
    (hacc : stepTable.guard (g step) (g' (g step)) = none) (k : List StepRow → RuntimeTx β) :
    (Tx.update stepTable p g' >>= k).outcome (db.attached step attempt g)
      = (k [g' (g step)]).outcome (db.attached step attempt (g' ∘ g)) := by
  have hmem : g step ∈ (db.attached step attempt g).steps :=
    (mem_setStep (db.addAttempt attempt) hids hstep).mpr (Or.inl rfl)
  have hids' : ((db.attached step attempt g).steps.map (·.stepId)).Nodup := by
    unfold Db.attached
    rw [setStep_ids hk]
    exact hids
  rw [update_step _ hids' hmem hp (fun s _ hs => by rw [hkey s hs, hk.stepId]) hacc, hk.stepId]
  unfold Db.attached
  rw [setStep_setStep hk]

theorem attached_attempt (hids : (db.attempts.map (·.attemptId)).Nodup) {a : AttemptRow}
    (hfresh : ∀ b ∈ db.attempts, b.attemptId ≠ a.attemptId) {p : AttemptRow → Bool}
    {f : AttemptRow → AttemptRow} (hp : p a = true)
    (hkey : ∀ b, p b = true → b.attemptId = a.attemptId) (hacc : attemptTable.guard a (f a) = none)
    (k : List AttemptRow → RuntimeTx β) :
    (Tx.update attemptTable p f >>= k).outcome (db.attached step a g)
      = (k [f a]).outcome (db.attached step (f a) g) := by
  have hids' : ((db.attached step a g).attempts.map
      (·.attemptId)).Nodup := by
    show ((db.attempts ++ [a]).map (·.attemptId)).Nodup
    rw [map_append, map_singleton, nodup_append]
    refine ⟨hids, by simp, ?_⟩
    intro i hi j hj
    obtain ⟨b, hb, rfl⟩ := mem_map.mp hi
    rw [mem_singleton.mp hj]
    exact hfresh b hb
  have hmem : a ∈ (db.attached step a g).attempts := by
    show a ∈ db.attempts ++ [a]
    simp
  rw [update_attempt _ hids' hmem hp (fun b _ hb => hkey b hb) hacc]
  have hset : (db.attached step a g).setAttempt a.attemptId f = db.attached step (f a) g := by
    show ((db.addAttempt a).setAttempt a.attemptId f).setStep step.stepId g = _
    rw [setAttempt_addAttempt hfresh]
    rfl
  rw [hset]

theorem attached_claim (hids : (db.steps.map (·.stepId)).Nodup) (hstep : step ∈ db.steps)
    (hk : Keeps id g) (hsame : attempt.stepId = step.stepId) (hready : (g step).state = .ready)
    (htoken : attempt.fenceToken = (g step).currentFence + 1) (k : List StepRow → RuntimeTx β) :
    (claimStep attempt >>= k).outcome (db.attached step attempt g)
      = (k [handTo attempt (g step)]).outcome (db.attached step attempt (handTo attempt ∘ g)) := by
  have hp : ((g step).stepId == attempt.stepId && (g step).state == .ready) = true := by
    rw [hk.stepId, hsame, hready]
    simp
  have hkey : ∀ s : StepRow, (s.stepId == attempt.stepId
      && s.state == .ready) = true → s.stepId = step.stepId := by
    intro s hs
    simp only [Bool.and_eq_true, beq_iff_eq] at hs
    rw [hs.1, hsame]
  exact attached_step hids hstep hk hp hkey (stepTable_accept_claim rfl hready rfl rfl htoken rfl) k

/-- An attempt that is the next one on its step. -/
structure NewOn (db : Db) (step : StepRow) (attempt : AttemptRow) : Prop where
  stepId : attempt.stepId = step.stepId
  attemptNo : attempt.attemptNo = db.priorAttempts step.stepId + 1
  fenceToken : attempt.fenceToken = step.currentFence + 1
  heartbeat : attempt.lastHeartbeatAt = db.clock
  state : attempt.state = .claimed

theorem newAttempt_newOn (db : Db) (step : StepRow) (attemptId : Nat)
    (leaseOwner : String) (lease : Int) :
    NewOn db step (newAttempt db step attemptId leaseOwner lease) :=
  ⟨rfl, rfl, rfl, rfl, rfl⟩

def InsertError (e : RuntimeError) : Prop :=
  e = .checkViolation "runtime_attempt_owner_ck" ∨ e = .uniqueViolation "runtime_attempt_pkey"

theorem InsertError.not_rejects {e : RuntimeError} (h : InsertError e) : ¬ e.Rejects := by
  rcases h with rfl | rfl
  · exact Runtime.not_rejects nofun (by decide)
  · exact Runtime.not_rejects nofun nofun

/-- The caller's own part of an insertable attempt: somebody owns it and
its id is new. -/
def Insertable (db : Db) (attemptId : Nat) (leaseOwner : String) : Prop :=
  leaseOwner ≠ "" ∧ ∀ b ∈ db.attempts, b.attemptId ≠ attemptId

/-- The next attempt on an idle step breaks none of the constraints that
the repository itself is answerable for. -/
theorem insertAttempt_outcome (h : Ledger db) (hstep : step ∈ db.steps)
    (hstate : step.state = .pending ∨ step.state = .ready) (db₁ : Db)
    (hattempts : db₁.attempts = db.attempts) (hnew : NewOn db step attempt) :
    (¬ Insertable db attempt.attemptId attempt.leaseOwner
        ∧ ∃ e, (insertAttempt attempt).outcome db₁ = .error e ∧ InsertError e)
      ∨ (Insertable db attempt.attemptId attempt.leaseOwner
        ∧ (insertAttempt attempt).outcome db₁ = .ok ((), db₁.addAttempt attempt)) := by
  have hok := h.step_ok step hstep
  have hlen : ∀ b ∈ db.attempts, b.stepId = step.stepId →
      b.attemptNo ≤ (db.attemptsOf step.stepId).length
        ∧ b.fenceToken ≤ (db.attemptsOf step.stepId).length
        ∧ b.state.spent = true := by
    intro b hb hbs
    have hmem := mem_attemptsOf.mpr ⟨hb, hbs⟩
    have hn := mem_map_of_mem (f := (·.attemptNo)) hmem
    have hf := mem_map_of_mem (f := (·.fenceToken)) hmem
    rw [hok.numbers, mem_range'_1] at hn
    rw [hok.fences, mem_range'_1] at hf
    refine ⟨by omega, by omega, hok.spent ?_ b hmem⟩
    rcases hstate with hs | hs
    · exact Or.inl hs
    · exact Or.inr (Or.inl hs)
  obtain ⟨hsame, hno, htoken, -, -⟩ := hnew
  rw [hok.priorAttempts] at hno
  rw [hok.fence] at htoken
  unfold insertAttempt
  simp only [Tx.outcome_select, Tx.outcome_require, hattempts]
  split
  · next howner =>
      split
      · next hfresh =>
          right
          refine ⟨⟨howner, hfresh⟩, ?_⟩
          have hnumber : ∀ b ∈ db.attempts, ¬ (b.stepId = attempt.stepId
              ∧ b.attemptNo = attempt.attemptNo) := by
            intro b hb hbad
            have := (hlen b hb (hbad.1.trans hsame)).1
            omega
          have htokens : ∀ b ∈ db.attempts, ¬ (b.stepId = attempt.stepId
              ∧ b.fenceToken = attempt.fenceToken) := by
            intro b hb hbad
            have := (hlen b hb (hbad.1.trans hsame)).2.1
            omega
          have hlive : ∀ b ∈ db.attempts, ¬ (b.stepId = attempt.stepId ∧ b.state.live = true) := by
            intro b hb hbad
            have := not_live_of_spent (hlen b hb (hbad.1.trans hsame)).2.2
            rw [hbad.2] at this
            cases this
          rw [if_pos hnumber, if_pos htokens, if_pos hlive]
          rfl
      · next hdup => exact Or.inl ⟨fun hi => hdup hi.2, _, rfl, Or.inr rfl⟩
  · next howner => exact Or.inl ⟨fun hi => howner hi.1, _, rfl, Or.inl rfl⟩

end Attached

-- ==== claim_next

inductive ClaimNext (db : Db) (admitted : Bool) (attemptId : Nat)
    (runId : Option Nat) (workerId : String) (lease : Int)
    (stepId : Option Nat) :
    Except RuntimeError (Option AttemptClaim × Db) → Prop
  | refused {e : RuntimeError} : ¬ (admitted = true ∧ ValidLease lease) →
      e = .leaseTooShort ∨ e = .leaseTooLong ∨ e = .admissionConflict →
      ClaimNext db admitted attemptId runId workerId lease stepId (.error e)
  | nothing : db.nextClaimable runId stepId = none →
      ClaimNext db admitted attemptId runId workerId lease stepId (.ok (none, db))
  | exhausted {step : StepRow} : db.nextClaimable runId stepId = some step →
      step.maxAttempts ≤ (db.attemptsOf step.stepId).length →
      ClaimNext db admitted attemptId runId workerId lease stepId
        (.error (.readyExhausted step.stepId))
  | notInserted {e : RuntimeError} : ¬ Insertable db attemptId workerId → InsertError e →
      ClaimNext db admitted attemptId runId workerId lease stepId (.error e)
  | claimed {step : StepRow} {claim : AttemptClaim} {db' : Db} :
      db.nextClaimable runId stepId = some step →
      (db.attemptsOf step.stepId).length < step.maxAttempts →
      claim.stepId = step.stepId → claim.attemptId = attemptId →
      Change db none db' →
      ClaimNext db admitted attemptId runId workerId lease stepId (.ok (some claim, db'))

variable {db : Db} {runId stepId : Option Nat} {step : StepRow}

/-- The step `claim_next` picks is one of the claimable ones. -/
theorem nextClaimable_some (h : db.nextClaimable runId stepId = some step) :
    step ∈ db.steps ∧ db.claimable runId stepId step = true := by
  have hmem := mem_of_mem_head? (Option.mem_def.mpr h)
  rw [mem_insertionSort, mem_filter] at hmem
  exact hmem

theorem nextClaimable_none (h : db.nextClaimable runId stepId = none) :
    ∀ step ∈ db.steps, db.claimable runId stepId step = false := by
  unfold Db.nextClaimable at h
  rw [head?_eq_none_iff] at h
  intro step hstep
  cases hc : db.claimable runId stepId step with
  | false => rfl
  | true =>
    have hmem : step ∈ (db.steps.filter (db.claimable runId stepId)).insertionSort fun a b =>
          a.ordinal < b.ordinal ∨ (a.ordinal = b.ordinal ∧ a.stepId ≤ b.stepId) :=
      (mem_insertionSort _).mpr (mem_filter.mpr ⟨hstep, hc⟩)
    rw [h] at hmem
    cases hmem

theorem claimable_iff : db.claimable runId stepId step = true
      ↔ db.run.state = .running ∧ runId.all (db.run.runId == ·) = true
        ∧ stepId.all (step.stepId == ·) = true ∧ step.state = .ready
        ∧ step.readyAt.any (· ≤ db.clock) = true
        ∧ step.deadlineAt.all (db.clock < ·) = true
        ∧ db.hasLiveStep = false
        ∧ db.hasUnmetDependency step.stepId = false := by
  unfold Db.claimable
  simp only [Bool.and_eq_true, beq_iff_eq, Bool.not_eq_true', and_assoc]

theorem claimNext_outcome (h : Inv db) (admitted : Bool) (attemptId : Nat) (runId : Option Nat)
    (workerId : String) (lease : Int) (stepId : Option Nat) :
    ClaimNext db admitted attemptId runId workerId lease stepId
      ((claimNext admitted attemptId runId workerId lease stepId).outcome db) := by
  unfold claimNext admitRuntimeAttempt
  rcases leaseMilliseconds_outcome db lease with
    ⟨e, he, hlease, hinvalid⟩ | ⟨hvalid, hms_out⟩
  · rw [Tx.outcome_bind_error he]
    refine .refused (fun hv => hinvalid hv.2) ?_
    rcases hlease with rfl | rfl
    · exact Or.inl rfl
    · exact Or.inr (Or.inl rfl)
  · rw [Tx.outcome_bind_ok hms_out, Tx.outcome_require]
    split
    · rw [Tx.outcome_get]
      cases hnext : db.nextClaimable runId stepId with
      | none => exact .nothing hnext
      | some step =>
        obtain ⟨hstep, hclaim⟩ := nextClaimable_some hnext
        obtain ⟨hrun, -, -, hready, -, -, hlive, -⟩ := claimable_iff.mp hclaim
        have hok := h.ledger.step_ok step hstep
        simp only [Tx.outcome_require]
        generalize ha : newAttempt db step attemptId workerId
          (wholeMilliseconds lease * 1000) = attempt
        have hnew : NewOn db step attempt := by
          rw [← ha]
          exact newAttempt_newOn db step _ _ _
        have hno := hnew.attemptNo
        split
        · next hmax =>
            rcases insertAttempt_outcome h.ledger hstep (Or.inr hready) db
              rfl hnew with
              ⟨hnot, e, he, hins⟩ | ⟨⟨-, hfresh⟩, hout⟩
            · rw [Tx.outcome_bind_error he]
              refine .notInserted ?_ hins
              rw [← ha] at hnot
              exact hnot
            · rw [Tx.outcome_bind_ok hout]
              have hstart : db.addAttempt attempt = db.attached step attempt id := by
                unfold Db.attached
                rw [setStep_id]
              rw [hstart, attached_claim (g := id) h.ledger.step_ids hstep
                ⟨fun _ => rfl, fun _ => rfl⟩ hnew.stepId hready
                hnew.fenceToken]
              have hcur : (handTo attempt step).currentAttemptId = currentOf attempt := by
                simp [handTo, currentOf, hnew.state, AttemptState.live]
              have hchange := Change.attach (g := handTo attempt) hrun
                hlive hstep (Or.inr hready) hnew.stepId hfresh hno hmax
                hnew.fenceToken hnew.heartbeat
                ⟨fun _ => rfl, fun _ => rfl⟩ rfl hcur
                (by rw [hnew.state]; rfl) (Or.inl ⟨hready, rfl⟩)
              rw [hno, hok.priorAttempts] at hmax
              exact .claimed hnext hmax rfl rfl hchange
        · next hmax =>
            rw [hno, hok.priorAttempts] at hmax
            exact .exhausted hnext (by omega)
    · next hadm => exact .refused (fun hv => hadm hv.1) (Or.inr (Or.inr rfl))

-- ==== expire_step_deadline

/-- What `expire_step_deadline` does. -/
inductive ExpireDeadline (db : Db) (admitted : Bool)
    (stepId attemptId : Nat) (leaseOwner : String) :
    Except RuntimeError (Option RecoveryDecision × Db) → Prop
  | refused : admitted = false → ExpireDeadline db admitted stepId attemptId leaseOwner
        (.error .admissionConflict)
  | nothing : (∀ step ∈ db.steps, step.stepId = stepId → db.deadlineExpired step = false) →
      ExpireDeadline db admitted stepId attemptId leaseOwner (.ok (none, db))
  | exhausted {step : StepRow} : step ∈ db.steps → step.stepId = stepId → step.state = .ready →
      step.deadlineAt.isSome →
      step.maxAttempts ≤ (db.attemptsOf step.stepId).length →
      ExpireDeadline db admitted stepId attemptId leaseOwner (.error (.deadlineExhausted stepId))
  | notInserted {e : RuntimeError} : ¬ Insertable db attemptId leaseOwner → InsertError e →
      ExpireDeadline db admitted stepId attemptId leaseOwner (.error e)
  | expired {decision : RecoveryDecision} {db' : Db} : Change db none db' →
      ExpireDeadline db admitted stepId attemptId leaseOwner (.ok (some decision, db'))

/-- A step whose deadline passed is ready when its attempt is
inserted. -/
theorem readyForDeadline_outcome (h : Ledger db) (hstep : step ∈ db.steps)
    (hstate : step.state = .pending ∨ step.state = .ready) :
    ∃ g, Keeps id g ∧ (g step).state = .ready ∧ (g step).currentFence = step.currentFence
      ∧ (readyForDeadline db step).outcome db = .ok ((), db.setStep step.stepId g) := by
  unfold readyForDeadline
  rcases hstate with hs | hs
  · refine ⟨makeReady db.clock, ⟨fun _ => rfl, fun _ => rfl⟩, rfl, rfl, ?_⟩
    have hp : (step.stepId == step.stepId && step.state == .pending) = true := by
      rw [hs]
      simp
    have hkey : ∀ s ∈ db.steps, (s.stepId == step.stepId
        && s.state == .pending) = true → s.stepId = step.stepId := by
      intro s _ hs
      exact beq_iff_eq.mp (Bool.and_eq_true_iff.mp hs).1
    rw [if_pos hs, update_step db h.step_ids hstep hp hkey
      (makeReady_accept (h.step_ok step hstep) (Or.inl hs) db.clock)]
    rfl
  · have hne : step.state ≠ .pending := by
      rw [hs]
      decide
    refine ⟨id, ⟨fun _ => rfl, fun _ => rfl⟩, hs, rfl, ?_⟩
    rw [if_neg hne, setStep_id]
    rfl

theorem expireStepDeadline_outcome (h : Inv db) (admitted : Bool)
    (stepId attemptId : Nat) (leaseOwner : String) :
    ExpireDeadline db admitted stepId attemptId leaseOwner
      ((expireStepDeadline admitted stepId attemptId leaseOwner).outcome db) := by
  unfold expireStepDeadline admitRuntimeAttempt
  rw [Tx.outcome_require]
  split
  · rw [Tx.outcome_get]
    cases hfind : db.steps.find? (fun step => step.stepId == stepId && db.deadlineExpired step) with
    | none =>
      refine .nothing fun step hstep hid => ?_
      have hno := find?_eq_none.mp hfind step hstep
      simpa [hid] using hno
    | some step =>
      have hstep := mem_of_find?_eq_some hfind
      have hfound := find?_some hfind
      unfold Db.deadlineExpired at hfound
      simp only [Bool.and_eq_true, Bool.or_eq_true, beq_iff_eq, Bool.not_eq_true'] at hfound
      obtain ⟨hid, ⟨⟨hrun, hstate⟩, hdeadline⟩, hlive⟩ := hfound
      have hok := h.ledger.step_ok step hstep
      simp only [Tx.outcome_require]
      generalize ha : newAttempt db step attemptId leaseOwner 1000000 = attempt
      have hnew : NewOn db step attempt := by
        rw [← ha]
        exact newAttempt_newOn db step _ _ _
      have hno := hnew.attemptNo
      split
      · next hmax =>
          obtain ⟨g, hk, hready, hfence, hout⟩ := readyForDeadline_outcome h.ledger hstep hstate
          rw [Tx.outcome_bind_ok hout]
          rcases insertAttempt_outcome h.ledger hstep hstate
            (db.setStep step.stepId g) rfl hnew with
            ⟨hnot, e, he, hins⟩ | ⟨⟨-, hfresh⟩, hins⟩
          · rw [Tx.outcome_bind_error he]
            refine .notInserted ?_ hins
            rw [← ha] at hnot
            exact hnot
          · -- claimed, started and failed, one update after another
            have haid : attempt.attemptId = attemptId := by
              rw [← ha]
              rfl
            have hkeyA : ∀ t : AttemptState, ∀ a : AttemptRow,
                (a.attemptId == attemptId && a.state == t) = true →
                  a.attemptId = attempt.attemptId := by
              intro t a ha
              rw [haid]
              exact beq_iff_eq.mp (Bool.and_eq_true_iff.mp ha).1
            have hkeyS : ∀ t : StepState, ∀ s : StepRow,
                (heldAt stepId attemptId attempt.fenceToken s
                  && s.state == t) = true → s.stepId = step.stepId := by
              intro t s hs
              rw [hid]
              exact (heldAt_iff.mp (Bool.and_eq_true_iff.mp hs).1).1
            have hheld : heldAt stepId attemptId attempt.fenceToken
                (handTo attempt (g step)) = true :=
              heldAt_iff.mpr ⟨(hk.stepId step).trans hid, congrArg some haid, rfl⟩
            have hk₁ : Keeps id (handTo attempt ∘ g) := ⟨hk.plan, fun _ => rfl⟩
            have hk₂ : Keeps id (markRunning ∘ handTo attempt ∘ g) := ⟨hk.plan, fun _ => rfl⟩
            rw [Tx.outcome_bind_ok hins]
            show ExpireDeadline db admitted stepId attemptId leaseOwner
              ((claimStep attempt >>= _).outcome (db.attached step attempt g))
            rw [attached_claim h.ledger.step_ids hstep hk hnew.stepId
              hready (by rw [hfence]; exact hnew.fenceToken),
              Tx.outcome_require_pos (cons_ne_nil _ _)]
            unfold updateAttempt
            rw [attached_attempt h.ledger.attempt_ids hfresh
                (by simp [haid, hnew.state]) (hkeyA .claimed)
                (attemptTable_accept .claimed .running hnew.state rfl (by decide) rfl),
              attached_step h.ledger.step_ids hstep hk₁
                (Bool.and_eq_true_iff.mpr ⟨hheld, rfl⟩) (hkeyS .claimed)
                (stepTable_accept .claimed .running rfl rfl (by decide)
                  (by decide) rfl rfl rfl rfl),
              attached_attempt (a := withState .running attempt) h.ledger.attempt_ids hfresh
                (by simp [withState, haid]) (hkeyA .running)
                (attemptTable_accept .running .failedTerminal rfl rfl (by decide) rfl),
              attached_step h.ledger.step_ids hstep hk₂
                (Bool.and_eq_true_iff.mpr ⟨hheld, rfl⟩) (hkeyS .running)
                (stepTable_accept .running .failed rfl rfl (by decide) (by decide) rfl rfl rfl rfl),
              update_run (db.attached _ _ _) (Eq.refl db.run.runId) (by
                  show (some RunState.running).all (db.run.state == ·) = true
                  rw [hrun]
                  rfl)
                (by
                  show (db.run.state, RunState.failed) ∈ runAllowed
                  rw [hrun]
                  decide)]
            exact .expired (@Change.attach db step
              (withState .failedTerminal (withState .running attempt))
              (takeBack .failed db.clock ∘ markRunning ∘ handTo attempt ∘ g) hrun hlive hstep hstate
              hnew.stepId hfresh hno hmax hnew.fenceToken hnew.heartbeat
              ⟨hk.plan, fun _ => rfl⟩ rfl rfl rfl (Or.inr rfl))
      · next hmax =>
          rw [hno, hok.priorAttempts] at hmax
          have hsome : step.deadlineAt.isSome := by
            cases hd : step.deadlineAt with
            | none => rw [hd] at hdeadline; cases hdeadline
            | some d => rfl
          refine .exhausted hstep hid ?_ hsome (by omega)
          rcases hstate with hs | hs
          · have hnil := hok.pending_nil hs
            have htries := hok.tries
            rw [hnil, length_nil] at hmax
            omega
          · exact hs
  · next hadm => exact .refused (by simpa using hadm)

end MarketRegimeAlpha.Runtime
