/-
When a tick that is `PENDING` again can be finished.

A holder alone claims the tick, observes its provider once more and
concludes (`pass`). Its provider attempt and its evidence are new rows, so
the rows of earlier holders are not in their way. Three things those have
left, or other ticks have, are: the decision of the tick, the token the
current evidence was accepted under, and the commit it points at
(`Finishable`).
-/
import Mathlib.Data.List.MinMax
import MarketRegimeAlpha.Continuous.Proofs.ChangeHistory

namespace MarketRegimeAlpha.Continuous

open Lib Journal List

/-- What a worker brings to a tick: when it acts, what its provider has
answered and what it makes of that. -/
structure Pass where
  claimId : String
  (leaseDuration claimedAt startedAt settledAt committedAt decidedAt finishedAt : Instant)
  outcome : ProviderAttemptOutcome
  evidence : EvidenceCommit
  downstreamContractSatisfied : Bool
  receipt : RuntimeTickReceipt
  runState : RunState

/-- `replace(claim, tick_version=version)`. -/
def ClaimedRuntimeTick.replace (claim : ClaimedRuntimeTick) (version : Nat) :
    Except Error ClaimedRuntimeTick :=
  ClaimedRuntimeTick.make claim.runId claim.tickId claim.tickSequence claim.claimId
    claim.fencingToken version claim.leaseAcquiredAt claim.leaseExpiresAt claim.heartbeatAt

namespace Pass

/-- The tick is claimed and its provider attempt succeeds. -/
def observe (p : Pass) (tickId : String) (j : Journal) :
    Except Error ((ClaimedRuntimeTick × Nat) × Journal) := do
  let (claim, j) ← j.claimTick p.claimedAt p.leaseDuration p.claimId j.runId tickId
  let ((attemptId, version), j) ← j.startProviderAttempt p.startedAt claim
  let claim ← claim.replace version
  let j ← j.completeProviderAttempt p.settledAt claim attemptId p.outcome
  return ((claim, attemptId), j)

/-- The evidence is decided on and the tick completed. -/
def conclude (digest : Digest) (tradingDate : EvidenceCommit → String) (p : Pass)
    (claim : ClaimedRuntimeTick) (j : Journal) : Except Error Journal := do
  let previous := j.getPriorEvidenceCommit p.evidence.runId p.evidence.tickId
    p.evidence.evidenceScope
  let decision ← ChangeDecision.create digest tradingDate p.evidence previous
    p.downstreamContractSatisfied
  let (version, j) ← j.recordChangeDecision p.decidedAt claim decision
  let claim ← claim.replace version
  j.completeTick p.finishedAt claim p.receipt p.runState

end Pass

def pass (digest : Digest) (tradingDate : EvidenceCommit → String) (p : Pass) (tickId : String)
    (j : Journal) : Except Error Journal := do
  let ((claim, attemptId), j) ← p.observe tickId j
  let ((_, version), j) ← j.commitEvidence p.committedAt claim
    ⟨attemptId, claim.runId, claim.tickId, p.outcome.status, p.outcome.sourceManifest⟩ p.evidence
  let claim ← claim.replace version
  p.conclude digest tradingDate claim j

variable {digest : Digest} {tradingDate : EvidenceCommit → String} {p : Pass}
  {j j' : Journal} {claim : ClaimedRuntimeTick} {tick tick' : Tick} {now : Instant}

-- ==== holding the tick

/-- The tick is in progress under the claim, as it was last seen. -/
structure Holding (p : Pass) (claim : ClaimedRuntimeTick) (tick : Tick) (j : Journal) : Prop where
  held : j.tick? claim.runId claim.tickId = some tick
  status_eq : tick.status = .inProgress
  lease_eq : tick.lease
    = some ⟨p.claimId, p.claimedAt, p.claimedAt + p.leaseDuration, p.claimedAt⟩
  claimId_eq : claim.claimId = p.claimId
  token_eq : claim.fencingToken = tick.fencingToken
  version_eq : claim.tickVersion = tick.version
  sequence_eq : claim.tickSequence = tick.tickSequence

variable (h : Holding p claim tick j)

include h in
theorem Holding.holds (hnow : now < p.claimedAt + p.leaseDuration) :
    claim.holds now tick = true := by
  simp [ClaimedRuntimeTick.holds, ClaimedRuntimeTick.holdsFence, TickLease.isOf, h.status_eq,
    h.lease_eq, h.claimId_eq, h.token_eq, h.version_eq, hnow]

include h in
theorem Holding.of_eq (hrun : j'.runId = j.runId)
    (hticks : j'.ticks = j.ticks) : Holding p claim tick j' := by
  refine { h with held := ?_ }
  rw [← h.held, tick?, tick?, hrun, hticks]

theorem tick?_setTick {runId tickId : String} (h : j.tick? runId tickId = some tick)
    (hid : tick'.tickId = tick.tickId) (hrun : j'.runId = j.runId)
    (hticks : j'.ticks = setTick tick' j.ticks) : j'.tick? runId tickId = some tick' := by
  obtain ⟨hrunId, -, htick⟩ := tick?_some h
  unfold tick? at h ⊢
  rw [if_pos hrunId] at h
  rw [if_pos (hrunId.trans hrun.symm), hticks, setTick, hid, htick]
  exact find?_replace h (hid.trans htick)

theorem receipts_setTick {runId tickId : String} (hj : Sound j)
    (h : j.tick? runId tickId = some tick) (hticks : j'.ticks = setTick tick' j.ticks)
    (hid : tick'.tickId = tick.tickId) (hreceipt : tick'.receipt = tick.receipt) :
    j'.ticks.map (·.receipt) = j.ticks.map (·.receipt) := by
  rw [hticks]
  exact map_setTick _ hj.ids_nodup (tick?_some h).2.1 hid hreceipt

include h in
/-- After an update that only moves the pointers the claim is renewed with
the version it has left. -/
theorem Holding.next (hrun : j'.runId = j.runId)
    (hticks : j'.ticks = setTick tick' j.ticks) (hid : tick'.tickId = tick.tickId)
    (hversion : tick'.version = tick.version + 1) (hlease : tick'.lease = tick.lease)
    (hstatus : tick'.status = tick.status) (htoken : tick'.fencingToken = tick.fencingToken)
    (hsequence : tick'.tickSequence = tick.tickSequence) :
    ∃ claim', claim.replace (tick.version + 1) = .ok claim' ∧ Holding p claim' tick' j'
      ∧ claim'.runId = claim.runId ∧ claim'.tickId = claim.tickId := by
  refine ⟨{ claim with
    tickVersion := tick.version + 1, tickVersion_pos := Nat.succ_pos _ }, ?_, ?_, rfl, rfl⟩
  · simp [ClaimedRuntimeTick.replace, ClaimedRuntimeTick.make, claim.tickSequence_pos,
      claim.fencingToken_pos, claim.acquired_before_expiry, claim.heartbeat_inside]
  · exact ⟨tick?_setTick h.held hid hrun hticks, hstatus.trans h.status_eq, hlease.trans h.lease_eq,
      h.claimId_eq, h.token_eq.trans htoken.symm, hversion.symm, h.sequence_eq.trans hsequence.symm⟩

-- ==== observing

def Pass.taken (p : Pass) (tick : Tick) : Tick :=
  { tick with
    status := .inProgress
    version := tick.version + 1
    fencingToken := tick.fencingToken + 1
    lease := some ⟨p.claimId, p.claimedAt, p.claimedAt + p.leaseDuration, p.claimedAt⟩
    retryAt := none }

theorem claimTick_pending {tickId : String} (hj : Sound j)
    (hheld : j.tick? j.runId tickId = some tick) (hpending : tick.status = .pending)
    (hdue : ∀ retryAt ∈ tick.retryAt, retryAt ≤ p.claimedAt) (hlease : 0 < p.leaseDuration) :
    ∃ claim j₁, j.claimTick p.claimedAt p.leaseDuration p.claimId j.runId tickId = .ok (claim, j₁)
      ∧ j₁ = { j with ticks := setTick (p.taken tick) j.ticks }.insertEvent (some tickId)
        .tickClaimed p.claimedAt (some (tick.fencingToken + 1))
      ∧ Holding p claim (p.taken tick) j₁ ∧ claim.runId = j.runId ∧ claim.tickId = tickId := by
  have hsequence : 1 ≤ tick.tickSequence := by
    have hmem := mem_map_of_mem (f := (·.tickSequence)) (tick?_some hheld).2.1
    rw [hj.sequences, mem_range'_1] at hmem
    exact hmem.1
  have hdue' : tick.retryAt.all (· ≤ p.claimedAt) = true := by
    cases hretry : tick.retryAt with
    | none => rfl
    | some retryAt => simpa using hdue retryAt hretry
  have hexpiry : p.claimedAt < p.claimedAt + p.leaseDuration := Nat.lt_add_of_pos_right hlease
  let claim : ClaimedRuntimeTick := ⟨j.runId, tickId, tick.tickSequence, p.claimId,
    tick.fencingToken + 1, tick.version + 1, p.claimedAt, p.claimedAt + p.leaseDuration,
    p.claimedAt, hsequence, Nat.succ_pos _, Nat.succ_pos _, hexpiry, le_rfl, hexpiry⟩
  refine ⟨claim, _, ?_, rfl, ⟨tick?_setTick hheld rfl rfl rfl, rfl, rfl, rfl, rfl, rfl, rfl⟩,
    rfl, rfl⟩
  unfold claimTick takeOverIfHeld claimLocked
  rw [hheld]
  simp only [fetchOne, ok_bind, hpending, reduceCtorEq, if_false, require_true, hdue']
  rw [updateTick_eq hheld ?_ ?_ ?_]
  · simp [ok_bind, ClaimedRuntimeTick.make, hsequence, hlease, claim]
    rfl
  · simp [hpending]
  · simp [guardTickMutation, hpending, TickStatus.isTerminal, require]
  · rfl

def startedAttempt (j : Journal) (claim : ClaimedRuntimeTick) (now : Instant) :
    ProviderAttempt where
  attemptId := j.attemptSequence + 1
  tickId := claim.tickId
  attemptNumber := ((j.attemptsOf claim.tickId).map (·.attemptNumber)).foldr max 0 + 1
  claimId := claim.claimId
  fencingToken := claim.fencingToken
  tickVersion := claim.tickVersion
  startedAt := now
  completedAt := none
  status := .started
  sourceManifest := none

include h in
theorem Holding.filter (hnow : now < p.claimedAt + p.leaseDuration) :
    (j.tick? claim.runId claim.tickId).filter (claim.holds now) = some tick := by
  rw [h.held, Option.filter_some, if_pos (h.holds hnow)]

include h in
theorem Holding.start (hnow : now < p.claimedAt + p.leaseDuration)
    (hfence : ∀ other ∈ j.attemptsOf claim.tickId, other.fencingToken ≠ claim.fencingToken) :
    ∃ j', j.startProviderAttempt now claim
        = .ok ((j.attemptSequence + 1, tick.version + 1), j')
      ∧ j' = { j with
        attempts := j.attempts ++ [startedAttempt j claim now]
        attemptSequence := j.attemptSequence + 1
        ticks := setTick { tick with
          providerAttemptId := some (j.attemptSequence + 1)
          version := tick.version + 1 } j.ticks }.insertEvent (some claim.tickId)
            .providerAttemptStarted now (some claim.fencingToken) := by
  have hid := (tick?_some h.held).2.2
  have hnumber : ∀ other ∈ j.attemptsOf claim.tickId, other.attemptNumber
      ≠ ((j.attemptsOf claim.tickId).map (·.attemptNumber)).foldr max 0 + 1 := by
    intro other hother
    have hmem := mem_map_of_mem (f := (·.attemptNumber)) hother
    exact (Nat.lt_succ_of_le (le_max_of_le' 0 hmem le_rfl)).ne
  refine ⟨_, ?_, rfl⟩
  unfold startProviderAttempt insertAttempt
  rw [h.filter hnow]
  simp only [fetchOne, ok_bind, hid]
  rw [require_true hnumber, ok_bind, require_true hfence]
  simp only [pure, Except.pure, ok_bind]
  rw [updateTick_held ?_ (h.holds hnow) ?_]
  · simp only [hid]
    rfl
  · exact h.held
  · exact ⟨rfl, rfl, fun _ => ⟨rfl, rfl⟩⟩

include h in
theorem Holding.settle {attemptId : Nat} {outcome : ProviderAttemptOutcome}
    (hnow : now < p.claimedAt + p.leaseDuration)
    (hfound : ∃ attempt ∈ j.attempts,
      completes claim (attemptId + 1) outcome.completedAt attempt = true) :
    ∃ j', j.completeProviderAttempt now claim (attemptId + 1) outcome = .ok j'
      ∧ j' = { j with
        attempts := j.attempts.map fun attempt =>
          if completes claim (attemptId + 1) outcome.completedAt attempt then { attempt with
            completedAt := some outcome.completedAt
            status := outcome.status
            sourceManifest := outcome.sourceManifest }
          else attempt }.insertEvent (some claim.tickId)
            .providerAttemptCompleted now (some claim.fencingToken) := by
  refine ⟨_, ?_, rfl⟩
  unfold completeProviderAttempt
  rw [require_true (Nat.le_add_left 1 attemptId), h.filter hnow]
  simp only [fetchOne, ok_bind]
  rw [require_true (any_eq_true.mpr hfound)]
  rfl

/-- What holds while the pass is under way, of a tick and the tables it
began with. -/
structure Progress (p : Pass) (j : Journal) (tick : Tick) (claim : ClaimedRuntimeTick)
    (tick' : Tick) (j' : Journal) : Prop where
  holding : Holding p claim tick' j'
  sound : Sound j'
  grows : Grows j j'
  claim_of : claim.runId = j.runId ∧ claim.tickId = tick.tickId
  token_eq : tick'.fencingToken = tick.fencingToken + 1
  sequence_eq : tick'.tickSequence = tick.tickSequence
  decision_eq : tick'.changeDecisionId = tick.changeDecisionId
  status_eq : j'.status = j.status
  runId_eq : j'.runId = j.runId
  decisions_eq : j'.decisions = j.decisions
  receipts_eq : j'.ticks.map (·.receipt) = j.ticks.map (·.receipt)

theorem observe_ok {tickId : String} (hj : Sound j) (hheld : j.tick? j.runId tickId = some tick)
    (hpending : tick.status = .pending) (hdue : ∀ retryAt ∈ tick.retryAt, retryAt ≤ p.claimedAt)
    (hlease : 0 < p.leaseDuration) (hstarted : p.startedAt < p.claimedAt + p.leaseDuration)
    (hsettled : p.settledAt < p.claimedAt + p.leaseDuration)
    (hcompleted : p.startedAt ≤ p.outcome.completedAt) :
    ∃ claim tick' j', p.observe tickId j = .ok ((claim, j.attemptSequence + 1), j')
      ∧ Progress p j tick claim tick' j' ∧ Keeps j j'
      ∧ ∃ attempt ∈ j'.attempts, attempt.attemptId = j.attemptSequence + 1
        ∧ attempt.tickId = claim.tickId ∧ attempt.status = p.outcome.status
        ∧ attempt.sourceManifest = p.outcome.sourceManifest := by
  obtain ⟨-, hmem, hid⟩ := tick?_some hheld
  obtain ⟨claim, j₁, hclaim, hj₁, h₁, hrun, htick⟩ :=
    claimTick_pending hj hheld hpending hdue hlease
  obtain ⟨hsound₁, hgrows₁⟩ := Writes.sound_grows (claimTick_writes hclaim) hj
  have hfence : ∀ other ∈ j₁.attemptsOf claim.tickId, other.fencingToken ≠ claim.fencingToken := by
    intro other hother
    rw [hj₁] at hother
    obtain ⟨hin, hof⟩ := mem_filter.mp hother
    obtain ⟨row, hrow, hrowId, hle⟩ := hj.attempt_of other hin
    obtain rfl : row = tick := inj_on_of_nodup_map hj.ids_nodup hrow hmem
      (hrowId.trans ((of_decide_eq_true hof).trans (htick.trans hid.symm)))
    rw [h₁.token_eq]
    exact (Nat.lt_succ_of_le hle).ne
  obtain ⟨j₂, hstart, hj₂⟩ := h₁.start hstarted hfence
  obtain ⟨hsound₂, hgrows₂⟩ := Writes.sound_grows (startProviderAttempt_writes hstart) hsound₁
  have hticks := congrArg Journal.ticks hj₂
  obtain ⟨claim', hreplace, h₂, hrun', htick'⟩ :=
    h₁.next (by rw [hj₂]; rfl) hticks rfl rfl rfl rfl rfl rfl
  have hmatches : completes claim' (j₁.attemptSequence + 1) p.outcome.completedAt
      (startedAttempt j₁ claim p.startedAt) = true := by
    simp [completes, startedAttempt, htick', hcompleted, h₁.claimId_eq, h₂.claimId_eq, h₁.token_eq,
      h₂.token_eq]
  have hfound : startedAttempt j₁ claim p.startedAt ∈ j₂.attempts := by
    rw [hj₂]
    exact mem_append_right _ mem_cons_self
  obtain ⟨j₃, hcomplete, hj₃⟩ := h₂.settle hsettled ⟨_, hfound, hmatches⟩
  obtain ⟨hsound₃, hgrows₃⟩ :=
    Writes.sound_grows (completeProviderAttempt_writes hcomplete) hsound₂
  have hsequence : j₁.attemptSequence = j.attemptSequence := by rw [hj₁]; rfl
  refine ⟨claim', { p.taken tick with
    providerAttemptId := some (j₁.attemptSequence + 1)
    version := (p.taken tick).version + 1 }, j₃, ?_, ?_, ?_, ?_⟩
  · unfold Pass.observe
    simp only [hclaim, ok_bind, hstart, hreplace, hcomplete]
    rw [hsequence]
    rfl
  · constructor
    case holding => exact h₂.of_eq (by rw [hj₃]; rfl) (by rw [hj₃]; rfl)
    case sound => exact hsound₃
    case grows => exact hgrows₁.trans (hgrows₂.trans hgrows₃)
    case claim_of => exact ⟨hrun'.trans hrun, htick'.trans (htick.trans hid.symm)⟩
    case receipts_eq =>
      rw [hj₃]
      exact (receipts_setTick hsound₁ h₁.held hticks rfl rfl).trans
        (receipts_setTick hj hheld (congrArg Journal.ticks hj₁) rfl rfl)
    all_goals first | rfl | rw [hj₃, hj₂, hj₁]; rfl
  · have hperformed : (Operation.startProviderAttempt claim).perform p.startedAt j₁ = .ok j₂ := by
      show (·.2) <$> j₁.startProviderAttempt p.startedAt claim = _
      rw [hstart]
      rfl
    have hquiet : Operation.IsQuiet (.startProviderAttempt claim) := trivial
    have hkeeps : Keeps j₁ j₂ := Operation.perform_keeps hquiet hsound₁ hperformed
    have hkeeps' : Keeps j₂ j₃ := @Operation.perform_keeps _ _ _
      (.completeProviderAttempt claim' _ p.outcome) trivial hsound₂ hcomplete
    exact (claimTick_keeps hj hclaim).trans (hkeeps.trans hkeeps')
  · rw [hj₃]
    refine ⟨_, mem_map_of_mem hfound, ?_⟩
    rw [if_pos hmatches, ← hsequence]
    exact ⟨rfl, htick'.symm, rfl, rfl⟩

-- ==== committing

variable {evidence : EvidenceCommit}

theorem advanceCurrent_iff {token : Nat} (hnew : ∀ row ∈ pointer j.current evidence.evidenceScope,
      row.evidenceCommitId ≠ evidence.evidenceCommitId) :
    (∃ reply, j.advanceCurrent token evidence = .ok reply) ↔
      ∀ row ∈ pointer j.current evidence.evidenceScope,
        row.materialIdentityHash ≠ evidence.materialIdentityHash →
        row.lastAcceptedFencingToken ≤ token := by
  unfold pointer at *
  unfold advanceCurrent
  cases hrow : j.current.find? (·.evidenceScope = evidence.evidenceScope) with
  | none => simp
  | some row =>
    have hid := hnew row hrow
    by_cases hsame : row.materialIdentityHash = evidence.materialIdentityHash
    · simp [hsame]
    · simp [hsame, guardCurrentEvidenceMutation, hid.symm, Ne.symm hsame, require]

include h in
/-- Evidence of a new successful attempt is committed if the current
evidence of its scope can advance. -/
theorem Holding.commit {attempt : ProviderAttempt} (hnow : now < p.claimedAt + p.leaseDuration)
    (hj : Sound j)
    (hof : evidence.runId = claim.runId ∧ evidence.tickId = claim.tickId)
    (hattempt : attempt ∈ j.attempts) (hid : attempt.attemptId = evidence.attemptId)
    (htick : attempt.tickId = claim.tickId) (hsucceeded : attempt.status = .succeeded)
    (hmanifest : attempt.sourceManifest = some evidence.sourceManifest)
    (hunused : ∀ other ∈ j.evidence, other.attemptId ≠ evidence.attemptId)
    (hnew : ∀ other ∈ j.evidence, other.evidenceCommitId ≠ evidence.evidenceCommitId) :
    ∃ events : Bool → List RuntimeEvent, j.commitEvidence now claim
        ⟨attempt.attemptId, claim.runId, claim.tickId, attempt.status, attempt.sourceManifest⟩
        evidence = (do
      let (advanced, j₁) ←
        { j with evidence := j.evidence ++ [evidence] }.advanceCurrent claim.fencingToken evidence
      return ((advanced, tick.version + 1), { j₁ with
        ticks := setTick { tick with
          evidenceCommitId := some evidence.evidenceCommitId
          version := tick.version + 1 } j.ticks
        events := events advanced })) := by
  have hfound : j.attempts.find? (fun row => row.attemptId = evidence.attemptId
      && row.tickId = claim.tickId && row.status = .succeeded) = some attempt := by
    cases hfind : j.attempts.find? _ with
    | none => simpa [hid, htick, hsucceeded] using find?_eq_none.mp hfind attempt hattempt
    | some other =>
      have hmatch := find?_some hfind
      simp only [Bool.and_eq_true, decide_eq_true_eq] at hmatch
      rw [inj_on_of_nodup_map hj.attempt_ids_nodup (mem_of_find?_eq_some hfind)
        hattempt (hmatch.1.1.trans hid.symm)]
  have hany : (j.evidence.any fun row => row.attemptId = evidence.attemptId) = false := by
    simpa using hunused
  let noted := j.insertEvent (some claim.tickId) .evidenceCommitted now (some claim.fencingToken)
  refine ⟨fun advanced => (if advanced then noted.insertEvent (some claim.tickId)
    .currentEvidenceChanged now (some claim.fencingToken) else noted).events, ?_⟩
  unfold commitEvidence insertEvidence
  rw [require_true ⟨hsucceeded, hid, rfl, rfl, hof.1, hof.2, hmanifest⟩, h.filter hnow]
  simp only [fetchOne, ok_bind, hid, hfound, hmanifest, require_true, hany]
  rw [if_neg (by decide), require_true hnew, ok_bind]
  simp only [pure, Except.pure, ok_bind]
  rw [require_true (by simp), ok_bind]
  cases hadvance : advanceCurrent { j with evidence := j.evidence ++ [evidence] }
      claim.fencingToken evidence with
  | error e => rfl
  | ok reply =>
    obtain ⟨advanced, j₁⟩ := reply
    obtain ⟨current, rfl, -⟩ := advanceCurrent_ok hadvance
    simp only [ok_bind]
    rw [updateTick_held ?_ (h.holds hnow) ?_]
    · cases advanced <;> rfl
    · exact h.held
    · exact ⟨rfl, rfl, fun _ => ⟨rfl, rfl⟩⟩

-- ==== what came before

variable {previous : EvidenceCommit} {runId tickId scope : String}

theorem prior_mem (h : j.getPriorEvidenceCommit runId tickId scope = some previous) :
    previous ∈ j.evidence ∧ previous.runId = runId ∧ previous.evidenceScope = scope := by
  obtain ⟨entry, hlast, rfl⟩ := Option.map_eq_some_iff.mp h
  have hmem := (sortBy_perm _ _).subset (mem_of_getLast? hlast)
  obtain ⟨row, hrow, hentry⟩ := mem_filterMap.mp hmem
  simp only [Option.bind_eq_bind, Option.bind_eq_some_iff, Option.ite_none_right_eq_some,
    Option.some.injEq] at hentry
  obtain ⟨m, -, n, -, ⟨hrun, hscope, -⟩, rfl⟩ := hentry
  exact ⟨hrow, hrun, hscope⟩

theorem noMaterialChange_iff {before : Option EvidenceCommit} {satisfied : Bool} :
    decisionTypeOf evidence before satisfied = .noMaterialChange ↔ satisfied = true
      ∧ ∃ previous, before = some previous
        ∧ previous.materialIdentityHash = evidence.materialIdentityHash := by
  cases satisfied <;> cases before <;> simp [decisionTypeOf]

theorem prior_committed (hj : Sound j) (ht : Traced j) (hj' : Sound j') (hgrows : Grows j j')
    (hrun : j'.runId = j.runId) (hevidence : j'.evidence = j.evidence ++ [evidence])
    (hof : runId = j.runId) (htick : ∃ tick ∈ j.ticks, tick.tickId = evidence.tickId) :
    j'.getPriorEvidenceCommit runId evidence.tickId scope
      = j.getPriorEvidenceCommit runId evidence.tickId scope := by
  have hsequence : ∀ id, (∃ tick ∈ j.ticks, tick.tickId = id) →
      ∃ n, j.sequenceOf runId id = some n ∧ j'.sequenceOf runId id = some n := by
    rintro _ ⟨tick, hmem, rfl⟩
    have hn : j.sequenceOf runId tick.tickId = some tick.tickSequence := by
      rw [sequenceOf, tick?_of_mem hj hof hmem, Option.map_some]
    exact ⟨_, hn, sequenceOf_grows hj' hgrows hrun hn⟩
  obtain ⟨n, hn, hn'⟩ := hsequence _ htick
  unfold getPriorEvidenceCommit priorEvidence
  rw [hevidence, filterMap_append, filterMap_cons, filterMap_nil, hn, hn']
  simp only [Option.bind_eq_bind, Option.bind_some, lt_irrefl, and_false, if_false]
  rw [append_nil]
  congr 3
  refine filterMap_congr fun row hrow => ?_
  obtain ⟨attempt, hattempt, -, hattemptTick⟩ := ht.evidence_attempt row hrow
  obtain ⟨tick, hmem, hid, -⟩ := hj.attempt_of attempt hattempt
  obtain ⟨m, hm, hm'⟩ := hsequence row.tickId ⟨tick, hmem, hid.trans hattemptTick⟩
  rw [hm, hm']

-- ==== concluding

def NewReceipt (receipt : RuntimeTickReceipt) (j : Journal) : Prop :=
  ∀ row ∈ j.ticks.map (·.receipt), ∀ other ∈ row, other.receiptId ≠ receipt.receiptId

include h in
theorem Holding.finish_iff {receipt : RuntimeTickReceipt} {runState : RunState}
    (hnow : now < p.claimedAt + p.leaseDuration)
    (hof : receipt.runId = claim.runId ∧ receipt.tickId = claim.tickId
      ∧ receipt.tickSequence = claim.tickSequence ∧ receipt.claimId = claim.claimId
      ∧ receipt.fencingToken = claim.fencingToken) (hnew : NewReceipt receipt j) :
    (∃ j', j.completeTick now claim receipt runState = .ok j') ↔ j.status ≠ .archived := by
  have htaken : (j.ticks.any fun tick =>
      tick.receipt.any fun other => other.receiptId = receipt.receiptId) = false := by
    rw [any_eq_false]
    intro row hrow
    cases hreceipt : row.receipt with
    | none => simp
    | some other => simpa using hnew _ (mem_map.mpr ⟨row, hrow, hreceipt⟩) other rfl
  unfold completeTick
  rw [require_true hof, updateTick_held h.held (h.holds hnow) ⟨rfl, rfl, by simp⟩]
  simp only [ok_bind, fetchOne, htaken, require_true, updateRunState, updateRun]
  by_cases hopen : j.status = .archived
  · simp [hopen, require, bind, Except.bind]
  · simp [hopen, require_true]

/-- The pass is in time, its provider answers, its evidence is of this
attempt and its receipt of this claim, and the identities are new. -/
structure Pass.Regular (digest : Digest) (tradingDate : EvidenceCommit → String) (p : Pass)
    (tick : Tick) (j : Journal) : Prop where
  due : ∀ retryAt ∈ tick.retryAt, retryAt ≤ p.claimedAt
  lease_pos : 0 < p.leaseDuration
  inside : p.startedAt < p.claimedAt + p.leaseDuration ∧ p.settledAt < p.claimedAt + p.leaseDuration
    ∧ p.committedAt < p.claimedAt + p.leaseDuration ∧ p.decidedAt < p.claimedAt + p.leaseDuration
    ∧ p.finishedAt < p.claimedAt + p.leaseDuration
  completed : p.startedAt ≤ p.outcome.completedAt
  manifest : p.outcome.sourceManifest = some p.evidence.sourceManifest
  evidence_of : p.evidence.runId = j.runId ∧ p.evidence.tickId = tick.tickId
    ∧ p.evidence.attemptId = j.attemptSequence + 1
  evidence_new : ∀ other ∈ j.evidence, other.evidenceCommitId ≠ p.evidence.evidenceCommitId
  trading_date : ∀ other ∈ j.evidence, tradingDate other = tradingDate p.evidence
  decision_new : ∀ previous type,
    tick.changeDecisionId ≠ some (digest.decisionId p.evidence previous type)
      ∧ ∀ other ∈ j.decisions, other.decisionId ≠ digest.decisionId p.evidence previous type
  receipt_of : p.receipt.runId = j.runId ∧ p.receipt.tickId = tick.tickId
    ∧ p.receipt.tickSequence = tick.tickSequence ∧ p.receipt.claimId = p.claimId
    ∧ p.receipt.fencingToken = tick.fencingToken + 1
  receipt_new : NewReceipt p.receipt j

variable {row : CurrentEvidence} {prior : Option EvidenceCommit}

include h in
theorem Holding.not_recorded {decision : ChangeDecision} {decisionId : String}
    (hnow : now < p.claimedAt + p.leaseDuration)
    (hdecided : tick.changeDecisionId = some decisionId) (hne : decisionId ≠ decision.decisionId)
    {reply : Nat × Journal} : j.recordChangeDecision now claim decision ≠ .ok reply := by
  have hfence : claim.holdsFence now tick = true := by
    have := h.holds hnow
    simp [ClaimedRuntimeTick.holds] at this
    exact this.1
  intro hrecord
  unfold recordChangeDecision at hrecord
  rw [h.held, Option.filter_some, if_pos hfence] at hrecord
  simp [fetchOne, hdecided, hne, require] at hrecord

/-- Once its evidence is committed the pass ends well unless the tick has
been decided, the run is archived, or it finds no change against a commit
that its scope does not point at. -/
theorem Progress.conclude_iff (h : Progress p j tick claim tick' j')
    (hp : p.Regular digest tradingDate tick j) (hfirst : tick.changeDecisionId = none →
      ∀ other ∈ j.decisions, other.tickId ≠ p.evidence.tickId)
    (hprior : j'.getPriorEvidenceCommit p.evidence.runId p.evidence.tickId p.evidence.evidenceScope
      = prior) (hdate : ∀ previous ∈ prior, tradingDate previous = tradingDate p.evidence)
    (hcited : Cited j' p.evidence prior row) :
    (∃ after, p.conclude digest tradingDate claim j' = .ok after) ↔
      tick.changeDecisionId = none ∧ j.status ≠ .archived
        ∧ (decisionTypeOf p.evidence prior p.downstreamContractSatisfied = .noMaterialChange →
          prior.map (·.evidenceCommitId) = some row.evidenceCommitId) := by
  let decision := decisionOn digest p.evidence prior p.downstreamContractSatisfied
  have hcreate : ChangeDecision.create digest tradingDate p.evidence prior
      p.downstreamContractSatisfied = .ok decision := by
    unfold ChangeDecision.create
    rw [require_true]
    · rfl
    · intro previous hprevious
      obtain ⟨-, hrun, hscope⟩ := prior_mem (hprior.trans hprevious)
      exact ⟨hrun, hscope, hdate previous hprevious⟩
  have hbelongs : decision.runId = claim.runId ∧ decision.tickId = claim.tickId :=
    ⟨hp.evidence_of.1.trans h.claim_of.1.symm, hp.evidence_of.2.1.trans h.claim_of.2.symm⟩
  obtain ⟨-, -, -, hdecidedAt, hfinishedAt⟩ := hp.inside
  unfold Pass.conclude
  simp only [hprior, hcreate, ok_bind]
  cases hdecision : tick.changeDecisionId with
  | some decisionId =>
    have hnew := fun type => (hp.decision_new prior type).1
    rw [hdecision] at hnew
    simp only [bind_ok]
    constructor
    · rintro ⟨after, reply, hrecord, -⟩
      exact absurd hrecord (h.holding.not_recorded hdecidedAt (h.decision_eq.trans hdecision)
        fun heq => hnew _ (congrArg some heq))
    · exact fun hnone => absurd hnone.1 (Option.some_ne_none _)
  | none =>
    have hlineage : j'.requireLineage decision = .ok () ↔ _ :=
      requireLineage_iff h.sound hcited
    obtain ⟨j₁, hrecord, hj₁⟩ := recordChangeDecision_eq h.holding.held
      (h.holding.holds hdecidedAt) hbelongs (h.decision_eq.trans hdecision)
      (h.decisions_eq ▸ hfirst hdecision) (h.decisions_eq ▸ (hp.decision_new _ _).2)
    rw [← hlineage, hrecord]
    cases j'.requireLineage decision with
    | error e => simp [bind, Except.bind]
    | ok u =>
      have hticks := congrArg Journal.ticks hj₁
      obtain ⟨claim', hreplace, hholding, hrun, htick⟩ :=
        h.holding.next (by rw [hj₁]; rfl) hticks rfl rfl rfl rfl rfl rfl
      have hreceipts := receipts_setTick h.sound h.holding.held hticks rfl rfl
      have hopen : j₁.status = j.status := by rw [hj₁, ← h.status_eq]; rfl
      simp only [ok_bind, hreplace, true_and, and_true]
      rw [← hopen]
      refine hholding.finish_iff hfinishedAt ?_ ?_
      · rw [hrun, htick, h.claim_of.1, h.claim_of.2, hholding.sequence_eq, hholding.claimId_eq,
          hholding.token_eq]
        exact h.sequence_eq ▸ h.token_eq ▸ hp.receipt_of
      · rw [NewReceipt, hreceipts, h.receipts_eq]
        exact hp.receipt_new

-- ==== the whole pass

/-- The current evidence of the scope was not accepted under a larger
token, unless it has the material. -/
def Pass.Accepted (p : Pass) (tick : Tick) (j : Journal) : Prop :=
  ∀ row ∈ pointer j.current p.evidence.evidenceScope,
    row.materialIdentityHash ≠ p.evidence.materialIdentityHash →
    row.lastAcceptedFencingToken ≤ tick.fencingToken + 1

/-- What earlier holders and other ticks have left is not in the way. -/
structure Pass.Finishable (p : Pass) (tick : Tick) (j : Journal) : Prop where
  undecided : tick.changeDecisionId = none
  not_archived : j.status ≠ .archived
  accepted : p.Accepted tick j
  anchored : ∀ previous ∈ j.getPriorEvidenceCommit p.evidence.runId p.evidence.tickId
      p.evidence.evidenceScope, p.downstreamContractSatisfied = true →
    previous.materialIdentityHash = p.evidence.materialIdentityHash →
    ∃ row, pointer j.current p.evidence.evidenceScope = some row
      ∧ row.materialIdentityHash = p.evidence.materialIdentityHash
      ∧ row.evidenceCommitId = previous.evidenceCommitId

/-- The commit of the pass returns exactly if its token is large enough to
advance the current evidence. -/
theorem Progress.commit (hj : Sound j) (ht : Traced j) (hp : p.Regular digest tradingDate tick j)
    (h : Progress p j tick claim tick' j') (hkeeps : Keeps j j') {attempt : ProviderAttempt}
    (hattempt : attempt ∈ j'.attempts) (hid : attempt.attemptId = j.attemptSequence + 1)
    (hof : attempt.tickId = claim.tickId) (hstatus : attempt.status = p.outcome.status)
    (hmanifest : attempt.sourceManifest = p.outcome.sourceManifest) :
    let outcome := j'.commitEvidence p.committedAt claim ⟨j.attemptSequence + 1, claim.runId,
      claim.tickId, p.outcome.status, p.outcome.sourceManifest⟩ p.evidence
    (¬ p.Accepted tick j ∧ ∃ e, outcome = .error e)
      ∨ p.Accepted tick j ∧ ∃ advanced claim₁ tick₁ j₁,
        outcome = .ok ((advanced, tick'.version + 1), j₁)
          ∧ claim.replace (tick'.version + 1) = .ok claim₁ ∧ Progress p j tick claim₁ tick₁ j₁
          ∧ j₁.evidence = j.evidence ++ [p.evidence]
          ∧ Advances j.current j₁.current p.evidence := by
  obtain ⟨hrun, htick, hattemptId⟩ := hp.evidence_of
  have hunused : ∀ other ∈ j'.evidence, other.attemptId ≠ p.evidence.attemptId := by
    rw [hkeeps.evidence_eq]
    intro other hother
    obtain ⟨drawn, hdrawn, heq, -⟩ := hj.commit_of other hother
    have hle := hj.attempt_ids_drawn drawn hdrawn
    omega
  have hsucceeded : attempt.status = .succeeded := by
    rw [hstatus, p.outcome.manifest_iff, hp.manifest]
    rfl
  obtain ⟨events, hcommit⟩ := h.holding.commit hp.inside.2.2.1 h.sound
    ⟨hrun.trans h.claim_of.1.symm, htick.trans h.claim_of.2.symm⟩ hattempt
    (hid.trans hattemptId.symm) hof hsucceeded (hmanifest.trans hp.manifest) hunused
    (hkeeps.evidence_eq ▸ hp.evidence_new)
  rw [hid, hstatus, hmanifest] at hcommit
  have hnew : ∀ row ∈ pointer j'.current p.evidence.evidenceScope,
      row.evidenceCommitId ≠ p.evidence.evidenceCommitId := by
    intro row hrow
    rw [hkeeps.current_eq] at hrow
    obtain ⟨other, hother, heq⟩ := ht.current_of row (mem_of_find?_eq_some hrow)
    exact heq ▸ hp.evidence_new other hother
  have hadvance : (∃ reply, advanceCurrent { j' with evidence := j'.evidence ++ [p.evidence] }
      claim.fencingToken p.evidence = .ok reply) ↔ p.Accepted tick j := by
    rw [Pass.Accepted, ← h.token_eq, ← h.holding.token_eq, ← hkeeps.current_eq]
    exact advanceCurrent_iff hnew
  rw [← hadvance]
  cases hadvanced : advanceCurrent { j' with evidence := j'.evidence ++ [p.evidence] }
      claim.fencingToken p.evidence with
  | error e => exact .inl ⟨nofun, e, by rw [hcommit, hadvanced]; rfl⟩
  | ok reply =>
    obtain ⟨advanced, j₁⟩ := reply
    obtain ⟨current, rfl, hadvances⟩ := advanceCurrent_ok hadvanced
    rw [hadvanced] at hcommit
    obtain ⟨hsound, hgrows⟩ := Writes.sound_grows (commitEvidence_writes hcommit) h.sound
    simp only [ok_bind, pure, Except.pure] at hcommit
    generalize hj₁ : ({ j' with
      evidence := j'.evidence ++ [p.evidence]
      current := current
      ticks := setTick { tick' with
        evidenceCommitId := some p.evidence.evidenceCommitId
        version := tick'.version + 1 } j'.ticks
      events := events advanced } : Journal) = j₁ at hcommit hsound hgrows
    have hticks := congrArg Journal.ticks hj₁.symm
    obtain ⟨claim₁, hreplace, hholding, hrun₁, htick₁⟩ :=
      h.holding.next (by rw [← hj₁]) hticks rfl rfl rfl rfl rfl rfl
    have hprogress : Progress p j tick claim₁ _ j₁ := {
      holding := hholding
      sound := hsound
      grows := h.grows.trans hgrows
      claim_of := ⟨hrun₁.trans h.claim_of.1, htick₁.trans h.claim_of.2⟩
      token_eq := h.token_eq
      sequence_eq := h.sequence_eq
      decision_eq := h.decision_eq
      status_eq := by rw [← hj₁, ← h.status_eq]
      runId_eq := by rw [← hj₁, ← h.runId_eq]
      decisions_eq := by rw [← hj₁, ← h.decisions_eq]
      receipts_eq := (receipts_setTick h.sound h.holding.held hticks rfl rfl).trans h.receipts_eq }
    refine .inr ⟨⟨_, rfl⟩, advanced, claim₁, _, j₁, hcommit, hreplace, hprogress, ?_, ?_⟩
    · rw [← hj₁, ← hkeeps.evidence_eq]
    · rw [← hj₁, ← hkeeps.current_eq]
      exact hadvances

/-- What the scope points at once evidence is accepted is an earlier
commit exactly if it was before, with the same material. -/
theorem pointed_of_advances {rows rows' : List CurrentEvidence} {earlier : List EvidenceCommit}
    (h : Advances rows rows' evidence)
    (hnew : ∀ other ∈ earlier, other.evidenceCommitId ≠ evidence.evidenceCommitId) :
    ∃ row, pointer rows' evidence.evidenceScope = some row
      ∧ row.materialIdentityHash = evidence.materialIdentityHash
      ∧ ∀ previous ∈ earlier, row.evidenceCommitId = previous.evidenceCommitId ↔
        ∃ old, pointer rows evidence.evidenceScope = some old
          ∧ old.materialIdentityHash = evidence.materialIdentityHash
          ∧ old.evidenceCommitId = previous.evidenceCommitId := by
  rcases h.pointer with ⟨row, hrow, hsame, hrow'⟩ | ⟨hdiffers, row, hrow, hid, hsame⟩
  · refine ⟨row, hrow', hsame, fun previous _ => ⟨fun heq => ⟨row, hrow, hsame, heq⟩, ?_⟩⟩
    rintro ⟨old, hold, -, heq⟩
    exact Option.some.inj (hold.symm.trans hrow) ▸ heq
  · refine ⟨row, hrow, hsame, fun previous hprevious => ⟨fun heq => ?_, ?_⟩⟩
    · exact absurd (heq.symm.trans hid) (hnew previous hprevious)
    · rintro ⟨old, hold, heq, -⟩
      exact absurd heq (hdiffers old hold)

/-- In every reached state a `PENDING` tick can be finished exactly if it
is `Finishable`. -/
theorem pass_finishes_iff {s : System} (hreach : Reach Starts step (fun _ _ => True) s)
    (hmem : tick ∈ s.journal.ticks) (hpending : tick.status = .pending)
    (hp : p.Regular digest tradingDate tick s.journal) :
    (∃ after, pass digest tradingDate p tick.tickId s.journal = .ok after) ↔
      p.Finishable tick s.journal := by
  have hj := sound_of_reach hreach
  have ht := traced_of_reach hreach
  obtain ⟨hrun, htick, -⟩ := hp.evidence_of
  obtain ⟨claim, tick', j', hobserve, h, hkeeps, attempt, hattempt, hid, hof, hstatus, hmanifest⟩ :=
    observe_ok hj (tick?_of_mem hj rfl hmem) hpending hp.due hp.lease_pos hp.inside.1 hp.inside.2.1
      hp.completed
  unfold pass
  simp only [hobserve, ok_bind]
  rcases h.commit hj ht hp hkeeps hattempt hid hof hstatus hmanifest with
    ⟨haccepted, e, hcommit⟩ | ⟨haccepted, advanced, claim₁, tick₁, j₁, hcommit, hreplace, h₁,
      hevidence, hadvances⟩
  · rw [hcommit]
    constructor
    · rintro ⟨after, hafter⟩
      cases hafter
    · exact fun hf => absurd hf.accepted haccepted
  · simp only [hcommit, ok_bind, hreplace]
    have hfirst : tick.changeDecisionId = none →
        ∀ other ∈ s.journal.decisions, other.tickId ≠ p.evidence.tickId := by
      intro hnone other hother heq
      have hdecided := (ht.decided tick.tickId).mpr ⟨other, hother, heq.trans htick⟩
      rw [decided_iff hj.ids_nodup hmem, hnone] at hdecided
      cases hdecided
    obtain ⟨row, hrow, hmaterial, hpointed⟩ := pointed_of_advances hadvances hp.evidence_new
    have hprior : j₁.getPriorEvidenceCommit _ _ p.evidence.evidenceScope = _ :=
      prior_committed hj ht h₁.sound h₁.grows h₁.runId_eq hevidence hrun ⟨tick, hmem, htick.symm⟩
    have hcited : Cited j₁ p.evidence (s.journal.getPriorEvidenceCommit p.evidence.runId
        p.evidence.tickId p.evidence.evidenceScope) row := {
      evidence_mem := hevidence ▸ mem_append_right _ (mem_singleton_self _)
      previous_mem := fun previous hprevious =>
        ⟨hevidence ▸ mem_append_left _ (prior_mem hprevious).1, (prior_mem hprevious).2.1⟩
      pointer_eq := hrow
      material_eq := hmaterial }
    refine (h₁.conclude_iff hp hfirst hprior (fun previous hprevious =>
      hp.trading_date previous (prior_mem hprevious).1) hcited).trans ?_
    rw [noMaterialChange_iff]
    constructor
    · rintro ⟨hundecided, hopen, hsame⟩
      refine ⟨hundecided, hopen, haccepted, fun previous hprevious hsatisfied heq => ?_⟩
      have hid := hsame ⟨hsatisfied, previous, hprevious, heq⟩
      rw [hprevious] at hid
      exact (hpointed previous (prior_mem hprevious).1).mp (Option.some.inj hid).symm
    · intro hf
      refine ⟨hf.undecided, hf.not_archived, ?_⟩
      rintro ⟨hsatisfied, previous, hprevious, heq⟩
      rw [hprevious]
      exact congrArg some ((hpointed previous (prior_mem hprevious).1).mpr
        (hf.anchored previous hprevious hsatisfied heq)).symm

-- ==== a tick for the second time

section Sample

/-- The lease runs out while the provider is asked. -/
def expired : System :=
  run step freshSystem (startedEvents ++ [.elapse 30, .perform (.resume "run")])

def failedAfterDecision : System :=
  step (.perform (.failTick (sampleClaim 5 (by decide)) "error" true (some 0))) decided

def commitDigest : Digest :=
  ⟨fun evidence _ _ => evidence.evidenceCommitId, fun evidence _ _ => evidence.commitHash⟩

def secondPass : Pass where
  claimId := "second"
  leaseDuration := 30
  claimedAt := 30
  startedAt := 30
  settledAt := 30
  committedAt := 30
  decidedAt := 30
  finishedAt := 30
  outcome := { sampleOutcome with completedAt := 30 }
  evidence := { sampleEvidence with evidenceCommitId := "again", attemptId := 2 }
  downstreamContractSatisfied := true
  receipt := ⟨"receipt", "receipt-hash", "run", "tick", 1, "second", 2⟩
  runState := .monitoring

theorem secondPass_regular {s : System}
    (hrun : s.journal.runId = "run" ∧ s.journal.attemptSequence = 1)
    (hevidence : ∀ other ∈ s.journal.evidence, other.evidenceCommitId ≠ "again")
    (hdecisions : ∀ other ∈ s.journal.decisions, other.decisionId ≠ "again")
    (hticks : ∀ tick ∈ s.journal.ticks, tick.tickId = "tick" ∧ tick.tickSequence = 1
      ∧ tick.fencingToken = 1 ∧ (∀ retryAt ∈ tick.retryAt, retryAt ≤ 30)
      ∧ tick.changeDecisionId ≠ some "again" ∧ tick.receipt = none)
    (hmem : tick ∈ s.journal.ticks) :
    secondPass.Regular commitDigest (fun _ => "") tick s.journal := by
  obtain ⟨hid, hsequence, htoken, hdue, hdecision, -⟩ := hticks tick hmem
  refine ⟨hdue, by decide, by decide, by decide, rfl, ?_, hevidence, fun _ _ => rfl,
    fun _ _ => ⟨hdecision, hdecisions⟩, ?_, ?_⟩
  · rw [hrun.1, hrun.2, hid]
    decide
  · rw [hrun.1, hid, hsequence, htoken]
    decide
  · intro receipt hreceipt other hother
    obtain ⟨row, hrow, rfl⟩ := mem_map.mp hreceipt
    rw [(hticks row hrow).2.2.2.2.2] at hother
    cases hother

theorem pass_finishes_iff_sample : expired.journal.ticks.length = 1
      ∧ ∀ tick ∈ expired.journal.ticks, ∃ after,
        pass commitDigest (fun _ => "") secondPass tick.tickId expired.journal = .ok after := by
  refine ⟨by decide, fun tick hmem => ?_⟩
  have hpending : ∀ tick ∈ expired.journal.ticks,
      tick.status = .pending ∧ tick.changeDecisionId = none := by decide
  refine (pass_finishes_iff (reach_sample _) hmem (hpending tick hmem).1 (secondPass_regular
    (by decide) (by decide) (by decide) (by decide) hmem)).mpr
      ⟨(hpending tick hmem).2, by decide, ?_, ?_⟩
  · intro row hrow
    cases hrow
  · intro previous hprevious
    cases hprevious

/-- After its decision it cannot: the decision of the second holder is
another one. -/
theorem decided_tick_stuck :
    Reach Starts step (fun _ _ => True) failedAfterDecision
      ∧ failedAfterDecision.journal.ticks.length = 1
      ∧ ∀ tick ∈ failedAfterDecision.journal.ticks, tick.status = .pending
        ∧ secondPass.Regular commitDigest (fun _ => "") tick failedAfterDecision.journal
        ∧ pass commitDigest (fun _ => "") secondPass tick.tickId failedAfterDecision.journal
          = .error (.conflict "tick already has a different Change Decision") := by
  refine ⟨.step _ (reach_sample _) trivial, by decide, fun tick hmem => ⟨?_, ?_, ?_⟩⟩
  · revert tick
    decide
  · exact secondPass_regular (by decide) (by decide) (by decide) (by decide) hmem
  · have hid : ∀ tick ∈ failedAfterDecision.journal.ticks, tick.tickId = "tick" := by decide
    rw [hid tick hmem]
    rfl

end Sample

end MarketRegimeAlpha.Continuous
