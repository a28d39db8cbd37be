/-
Progress: the ready queue serves its steps, and a running run has one to
serve.

# The ready queue

A ready step with an attempt left never makes `claim_next` or
`expire_step_deadline` raise, and when its turn comes one of the two
takes it. The budget is kept by every event but the resume of a step
that waits with its attempts spent.
-/
import MarketRegimeAlpha.Runtime.Proofs.Reachable

namespace MarketRegimeAlpha.Runtime

open Lib

variable {db : Db}

-- ==== the ready queue

/-- The event resumes no waiting step whose attempts are spent. -/
def WithinBudget (e : Event) (db : Db) : Prop := ¬ ResumesSpent (fun _ => True) e db

/-- The queue of ready steps is never blocked by one of them: every
ready step has an attempt left, so neither operation that takes steps
off the queue raises over it; from its time on a ready step is claimable
or has missed its deadline, once no step is live; and then the two
operations take steps off indeed. -/
structure QueueOpen (db : Db) : Prop where
  budget : ∀ s ∈ db.steps, s.state = .ready → (db.attemptsOf s.stepId).length < s.maxAttempts
  claims : ∀ admitted attemptId runId workerId lease stepId i,
    (claimNext admitted attemptId runId workerId lease stepId).outcome db
      ≠ .error (.readyExhausted i)
  expires : ∀ admitted stepId attemptId leaseOwner i,
    (expireStepDeadline admitted stepId attemptId leaseOwner).outcome db
      ≠ .error (.deadlineExhausted i)
  turn : db.run.state = .running → db.hasLiveStep = false → ∀ s ∈ db.steps, s.state = .ready →
      ∃ readyAt, s.readyAt = some readyAt ∧ (readyAt ≤ db.clock →
        db.claimable none (some s.stepId) s = true ∨ db.deadlineExpired s = true)
  served : ∀ runId stepId attemptId workerId lease,
    Insertable db attemptId workerId → ValidLease lease →
    (∃ s ∈ db.steps, db.claimable runId stepId s = true) →
    ∃ claim db', (claimNext true attemptId runId workerId lease
      stepId).outcome db = .ok (some claim, db')
  failed : ∀ attemptId leaseOwner, Insertable db attemptId leaseOwner →
    ∀ s ∈ db.steps, db.deadlineExpired s = true →
    ∃ decision db', (expireStepDeadline true s.stepId attemptId
      leaseOwner).outcome db = .ok (some decision, db')

theorem Inv.turn (h : Inv db) (hrun : db.run.state = .running) (hlive : db.hasLiveStep = false)
    {s : StepRow} (hs : s ∈ db.steps) (hready : s.state = .ready) :
    ∃ readyAt, s.readyAt = some readyAt ∧ (readyAt ≤ db.clock →
      db.claimable none (some s.stepId) s = true ∨ db.deadlineExpired s = true) := by
  obtain ⟨readyAt, hat⟩ := Option.isSome_iff_exists.mp ((h.ledger.step_ok s hs).queued hready)
  refine ⟨readyAt, hat, fun hle => ?_⟩
  have hmet : db.hasUnmetDependency s.stepId = false := by
    rw [Bool.eq_false_iff]
    intro hunmet
    obtain ⟨d, hd, hds, p, hp, hpd, hblocks⟩ := hasUnmetDependency_iff.mp hunmet
    have hdone := h.runOk.met s hs (by rw [hready]; decide)
      (by rw [hready]; decide) d hd hds p hp hpd
    rw [hdone] at hblocks
    revert hblocks
    cases d.dependencyKind <;> decide
  by_cases hdeadline : s.deadlineAt.any (· ≤ db.clock) = true
  · right
    simp [Db.deadlineExpired, hrun, hready, hdeadline, hlive]
  · left
    rw [claimable_iff]
    refine ⟨hrun, rfl, by simp, hready, by simp [hat, hle], ?_, hlive, hmet⟩
    cases hd : s.deadlineAt with
    | none => rfl
    | some deadline =>
      rw [hd] at hdeadline
      simpa using hdeadline

/-- The queue stays open in every run within the budget. -/
theorem ready_never_blocks (h : Reachable WithinBudget db) :
    QueueOpen db := by
  have hinv := reachable_inv h
  have hbudget : ∀ s ∈ db.steps, s.state = .ready →
      (db.attemptsOf s.stepId).length < s.maxAttempts :=
    fun s hs hr => reachable_budget (fun _ _ hok => hok) h s hs hr trivial
  have hclaim : ∀ admitted attemptId runId workerId lease stepId i,
      (claimNext admitted attemptId runId workerId lease stepId).outcome db
        ≠ .error (.readyExhausted i) := by
    intro admitted attemptId runId workerId lease stepId i hout
    have hcase := claimNext_outcome hinv admitted attemptId runId workerId lease stepId
    rw [hout] at hcase
    cases hcase with
    | refused _ he => rcases he with he | he | he <;> cases he
    | notInserted _ he => rcases he with he | he <;> cases he
    | exhausted hnext hspent =>
      obtain ⟨hmem, hclaimable⟩ := nextClaimable_some hnext
      obtain ⟨-, -, -, hready, -⟩ := claimable_iff.mp hclaimable
      exact absurd (hbudget _ hmem hready) (Nat.not_lt.mpr hspent)
  have hexpire : ∀ admitted stepId attemptId leaseOwner i,
      (expireStepDeadline admitted stepId attemptId leaseOwner).outcome db
        ≠ .error (.deadlineExhausted i) := by
    intro admitted stepId attemptId leaseOwner i hout
    have hcase := expireStepDeadline_outcome hinv admitted stepId attemptId leaseOwner
    rw [hout] at hcase
    cases hcase with
    | notInserted _ he => rcases he with he | he <;> cases he
    | exhausted hstep _ hready _ hspent =>
      exact absurd (hbudget _ hstep hready) (Nat.not_lt.mpr hspent)
  refine ⟨hbudget, hclaim, hexpire, fun hrun hlive s hs hr => hinv.turn hrun hlive hs hr, ?_, ?_⟩
  · intro runId stepId attemptId workerId lease hins hlease ⟨s, hs, hc⟩
    have hcase := claimNext_outcome hinv true attemptId runId workerId lease stepId
    have hraise := hclaim true attemptId runId workerId lease stepId
    generalize (claimNext true attemptId runId workerId lease
      stepId).outcome db = r at hcase hraise ⊢
    cases hcase with
    | refused hvalid _ => exact absurd ⟨rfl, hlease⟩ hvalid
    | nothing hnext =>
      rw [nextClaimable_none hnext s hs] at hc
      cases hc
    | exhausted _ _ => exact absurd rfl (hraise _)
    | notInserted hnot _ => exact absurd hins hnot
    | claimed _ _ _ _ _ => exact ⟨_, _, rfl⟩
  · intro attemptId leaseOwner hins s hs hc
    have hcase := expireStepDeadline_outcome hinv true s.stepId attemptId leaseOwner
    have hraise := hexpire true s.stepId attemptId leaseOwner
    generalize (expireStepDeadline true s.stepId attemptId
      leaseOwner).outcome db = r at hcase hraise ⊢
    cases hcase with
    | refused hadm => cases hadm
    | nothing hno =>
      rw [hno s hs rfl] at hc
      cases hc
    | exhausted _ _ _ _ _ => exact absurd rfl (hraise _)
    | notInserted hnot _ => exact absurd hins hnot
    | expired _ => exact ⟨_, _, rfl⟩

/-- A run whose step is ready, and a worker to claim it. -/
theorem ready_never_blocks_solo : QueueOpen (Lib.run next (soloRun .none) [.startRun 1]) :=
  ready_never_blocks (Lib.Reach.run
    (.start (soloRun_scheduled .none (by decide))) [_] ⟨id, trivial⟩)

def spentResume : Db :=
  Lib.run next (soloRun .idempotentRemoteCommand)
    [.startRun 1, .claimNext true 7 none "worker" 1000000 none,
      .startAttempt ⟨7, 1, 1, "settle", 1, 1, "worker", 1000000⟩,
      .failAttempt ⟨7, 1, 1, "settle", 1, 1, "worker", 1000000⟩ "TIMEOUT",
      .resumeWaitingStep 1 1 "RESOLVED"]

/-- Its step is ready without an attempt left, and every later claim
raises. -/
theorem spentResume_blocks : Reachable Anytime spentResume
      ∧ (∃ s ∈ spentResume.steps, s.state = .ready
        ∧ (spentResume.attemptsOf s.stepId).length = s.maxAttempts)
      ∧ ¬ QueueOpen spentResume
      ∧ ∀ later : Nat, (claimNext true 8 none "worker" 1000000 none).outcome
          (next (.tick later) spentResume) = .error (.readyExhausted 1) := by
  have hreach : Reachable Anytime spentResume :=
    Reachable.run (.start (soloRun_scheduled .idempotentRemoteCommand (by decide))) _
  have hrow : ∀ s ∈ spentResume.steps, s.stepId = 1 ∧ s.state = .ready
      ∧ (spentResume.attemptsOf s.stepId).length = s.maxAttempts
      ∧ s.readyAt = some 0 ∧ s.deadlineAt = none
      ∧ spentResume.hasUnmetDependency s.stepId = false := by
    decide
  have hone : ∃ s, s ∈ spentResume.steps := List.exists_mem_of_ne_nil _ (by decide)
  obtain ⟨s, hs⟩ := hone
  obtain ⟨-, hready, hfull, hat, hdeadline, hmet⟩ := hrow s hs
  refine ⟨hreach, ⟨s, hs, hready, hfull⟩, fun hopen => absurd (hopen.budget s hs hready) (by omega),
    fun later => ?_⟩
  have hcase := claimNext_outcome (reachable_inv (.step (.tick later) hreach trivial)) true 8 none
    "worker" 1000000 none
  generalize (claimNext true 8 none "worker" 1000000 none).outcome
    (next (.tick later) spentResume) = r at hcase ⊢
  cases hcase with
  | refused hvalid _ =>
    have hlease : ValidLease 1000000 := ⟨by decide, by decide, by decide⟩
    exact absurd ⟨rfl, hlease⟩ hvalid
  | nothing hnext =>
    have hrun : spentResume.run.state = .running := by decide
    have hlive : spentResume.hasLiveStep = false := by decide
    have hclock : spentResume.clock = 0 := by decide
    have hno := nextClaimable_none hnext s hs
    have hyes : (next (.tick later) spentResume).claimable none none s = true := by
      refine claimable_iff.mpr ⟨hrun, rfl, rfl, hready, ?_, ?_, hlive, hmet⟩
      · rw [hat]
        show decide (0 ≤ spentResume.clock + later) = true
        simp [hclock]
      · rw [hdeadline]
        rfl
    rw [hno] at hyes
    cases hyes
  | exhausted hnext _ => rw [(hrow _ (nextClaimable_some hnext).1).1]
  | notInserted hnot _ =>
    have hfresh : ∀ b ∈ spentResume.attempts, b.attemptId ≠ 8 := by decide
    exact absurd ⟨by decide, hfresh⟩ hnot
  | claimed hnext hleft _ _ _ =>
    have hfull := (hrow _ (nextClaimable_some hnext).1).2.2.1
    exact absurd hleft (Nat.not_lt.mpr (Nat.le_of_eq hfull.symm))

-- ==== no stuck run

/-- Below every unfinished step of a running run some step is ready or
live, by induction on its rank. -/
theorem Inv.active_of_unfinished (h : Inv db) (hrun : db.run.state = .running) {rank : Nat → Nat}
    (hrank : ∀ d ∈ db.dependencies, rank d.predecessorStepId < rank d.successorStepId) :
    ∀ (n : Nat) (s : StepRow), s ∈ db.steps → rank s.stepId = n → s.state ≠ .succeeded →
      ∃ t ∈ db.steps, t.state = .ready ∨ t.state = .claimed ∨ t.state = .running := by
  intro n
  induction n using Nat.strongRecOn with
  | ind n ih =>
    intro s hs hn hunfinished
    have hallowed := h.runOk.allowed s hs
    rw [hrun] at hallowed
    by_cases hpending : s.state = .pending
    · obtain ⟨d, hd, hds, p, hp, hpd, hpstate⟩ :=
        h.runOk.blocked (by rw [hrun]; decide) s hs hpending
      have hlt := hrank d hd
      rw [hds, ← hpd, hn] at hlt
      exact ih _ hlt p hp rfl hpstate
    · refine ⟨s, hs, ?_⟩
      revert hallowed hpending hunfinished
      cases s.state <;> decide

/-- A running run has a step to work on, a waiting run waits for exactly
one step, and a run has succeeded exactly when all its steps have. -/
theorem no_stuck_run (h : Reachable Anytime db) :
    (db.run.state = .running → ∃ s ∈ db.steps, s.state = .ready
        ∨ s.state = .claimed ∨ s.state = .running)
      ∧ (db.run.state = .waiting → (db.steps.filter (·.state == .waiting)).length = 1
          ∧ ∀ s ∈ db.steps, s.state ≠ .claimed ∧ s.state ≠ .running)
      ∧ (db.run.state = .succeeded ↔ ∀ s ∈ db.steps, s.state = .succeeded) := by
  have hinv := reachable_inv h
  refine ⟨fun hrun => ?_, fun hwait => ⟨?_, fun s hs => ?_⟩, fun hsucc s hs => ?_, fun hall => ?_⟩
  · obtain ⟨rank, hrank⟩ := hinv.ranked
    obtain ⟨s, hs, hunfinished⟩ := hinv.runOk.unfinished (by rw [hrun]; decide)
    exact hinv.active_of_unfinished hrun hrank _ s hs rfl hunfinished
  · obtain ⟨s, hs, hsw⟩ := hinv.runOk.waiting hwait
    have hone : db.steps.filter (·.state == .waiting) = [s] := by
      refine filter_keyed hinv.ledger.step_ids hs (beq_iff_eq.mpr hsw) fun t ht htw => ?_
      refine hinv.runOk.one_busy t ht s hs ?_ (by rw [hsw]; rfl)
      rw [beq_iff_eq.mp htw]
      rfl
    rw [hone]
    rfl
  · have hallowed := hinv.runOk.allowed s hs
    rw [hwait] at hallowed
    revert hallowed
    cases s.state <;> decide
  · have hallowed := hinv.runOk.allowed s hs
    rw [hsucc] at hallowed
    exact beq_iff_eq.mp hallowed
  · by_contra hnot
    obtain ⟨s, hs, hunfinished⟩ := hinv.runOk.unfinished hnot
    exact hunfinished (hall s hs)

/-- A run that has just been started. -/
theorem no_stuck_run_solo : ∃ s ∈ (next (.startRun 1) (soloRun .none)).steps,
    s.state = .ready ∨ s.state = .claimed ∨ s.state = .running :=
  (no_stuck_run (.step (.startRun 1)
    (.start (soloRun_scheduled .none (by decide))) trivial)).1 (by decide)

-- ==== the order of the steps

def Before (db : Db) : Nat → Nat → Prop := Relation.TransGen fun p s =>
  ∃ d ∈ db.dependencies, d.predecessorStepId = p ∧ d.successorStepId = s

theorem RunOk.before (h : RunOk db) {i j : Nat} (hbefore : Before db i j) {s : StepRow}
    (hs : s ∈ db.steps) (hid : s.stepId = j) (hpending : s.state ≠ .pending)
    (hfailed : s.state ≠ .failed) : ∀ p ∈ db.steps, p.stepId = i → p.state = .succeeded := by
  induction hbefore generalizing s with
  | single hedge =>
    obtain ⟨d, hd, hpre, hsucc⟩ := hedge
    exact fun p hp hpid => h.met s hs hpending hfailed d hd (hsucc.trans hid.symm) p hp
      (hpid.trans hpre.symm)
  | tail _ hedge ih =>
    obtain ⟨d, hd, hpre, hsucc⟩ := hedge
    obtain ⟨q, hq, hqid⟩ := h.known d hd
    have hdone := h.met s hs hpending hfailed d hd (hsucc.trans hid.symm) q hq hqid
    exact ih hq (hqid.trans hpre) (by simp [hdone]) (by simp [hdone])

/-- Above a pending step of a started run stands one that is neither
pending nor done, by induction on its rank. -/
theorem Inv.frontier (h : Inv db) (hrun : db.run.state ≠ .queued) {rank : Nat → Nat}
    (hrank : ∀ d ∈ db.dependencies, rank d.predecessorStepId < rank d.successorStepId)
    (n : Nat) (s : StepRow) (hs : s ∈ db.steps) (hn : rank s.stepId = n)
    (hpending : s.state = .pending) : ∃ p ∈ db.steps, Before db p.stepId s.stepId
      ∧ p.state ≠ .pending ∧ p.state ≠ .succeeded := by
  induction n using Nat.strongRecOn generalizing s with
  | ind n ih =>
    obtain ⟨d, hd, hds, p, hp, hpd, hstate⟩ := h.runOk.blocked hrun s hs hpending
    have hedge : Before db p.stepId s.stepId := .single ⟨d, hd, hpd.symm, hds⟩
    by_cases hwaits : p.state = .pending
    · have hlt := hrank d hd
      rw [hds, ← hpd, hn] at hlt
      obtain ⟨q, hq, hbefore, hfront⟩ := ih _ hlt p hp rfl hwaits
      exact ⟨q, hq, hbefore.trans hedge, hfront⟩
    · exact ⟨p, hp, hedge, hwaits, hstate⟩

/-- Steps run in the order of the graph: over any number of dependencies a
step past pending has only succeeded steps before it, unless its own
deadline failed it, and a pending one has a step before it to wait for. -/
structure InOrder (db : Db) : Prop where
  done : ∀ s ∈ db.steps, s.state ≠ .pending → s.state ≠ .failed →
    ∀ p ∈ db.steps, Before db p.stepId s.stepId → p.state = .succeeded
  waits : db.run.state ≠ .queued → ∀ s ∈ db.steps, s.state = .pending →
    ∃ p ∈ db.steps, Before db p.stepId s.stepId ∧ p.state ≠ .pending ∧ p.state ≠ .succeeded

theorem runs_in_order (h : Reachable Anytime db) : InOrder db := by
  have hinv := reachable_inv h
  obtain ⟨rank, hrank⟩ := hinv.ranked
  exact ⟨fun s hs hpending hfailed p hp hbefore =>
    hinv.runOk.before hbefore hs rfl hpending hfailed p hp rfl,
    fun hrun s hs => hinv.frontier hrun hrank _ s hs rfl⟩

theorem runs_in_order_solo : InOrder (next (.startRun 1) (soloRun .none)) :=
  runs_in_order (.step _ (.start (soloRun_scheduled .none (by decide))) trivial)

end MarketRegimeAlpha.Runtime
