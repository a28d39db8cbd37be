/-
The operations of the Continuous Research journal, each one transaction.

# Taking a tick and losing it

A `PENDING` tick is claimed: its token goes up by one and a lease starts.
A claim is lost in three ways. The worker fails the tick and asks for a
retry (`failTick`), or the lease runs out and either another worker
claims that very tick (`claimTick`) or the run is resumed (`resume`).
Only `resume` settles the provider attempt of the fence it takes away.

# The fence

Every operation on a claimed tick reads its row `WHERE status =
'IN_PROGRESS' AND claim_id AND fencing_token AND version AND
lease_expires_at > now` (`holds`) and raises when there is none. One
reads it without the version: `recordChangeDecision` takes a decision the
tick already has as done, from a claim one version behind too.

An operation that raises changes nothing. The rows of other runs are not
here: a key of theirs in the way is an operation that raises.
-/
import MarketRegimeAlpha.Continuous.Tables

namespace MarketRegimeAlpha.Continuous

open Lib

/-- `fetchone()`, where no row raises. -/
def fetchOne {α : Type} (row : Option α) (e : Error) : Except Error α :=
  match row with
  | some a => .ok a
  | none => .error e

@[simp] theorem fetchOne_ok {α : Type} {row : Option α} {e : Error} {a : α} :
    fetchOne row e = .ok a ↔ row = some a := by
  cases row with
  | none => simp [fetchOne]
  | some b => simp [fetchOne]

/-- `claim_id`, and a lease that has not run out. -/
def TickLease.isOf (claimId : String) (now : Instant) (lease : TickLease) :
    Bool :=
  lease.claimId = claimId && now < lease.expiresAt

variable (claim : ClaimedRuntimeTick)

/-- The tick is in progress under the claim's id and token, and the lease
has not run out. -/
def ClaimedRuntimeTick.holdsFence (now : Instant) (tick : Tick) : Bool :=
  tick.status = .inProgress && tick.fencingToken = claim.fencingToken
    && tick.lease.any (TickLease.isOf claim.claimId now)

def ClaimedRuntimeTick.holds (now : Instant) (tick : Tick) : Bool :=
  claim.holdsFence now tick && tick.version = claim.tickVersion

/-- The lease has run out. -/
def Tick.isExpired (now : Instant) (tick : Tick) : Bool :=
  tick.status = .inProgress && tick.lease.any fun lease => lease.expiresAt ≤ now

def Tick.isDue (now : Instant) (tick : Tick) : Bool :=
  tick.status = .pending && tick.retryAt.all fun retryAt => retryAt ≤ now

def Tick.released (tick : Tick) : Tick :=
  { tick with
    status := .pending
    version := tick.version + 1
    lease := none
    lastError := some "LEASE_EXPIRED"
    retryAt := none }

namespace Journal

-- ==== admitting

variable (j : Journal)

def admitTick (now : Instant) (command : RuntimeTickCommand)
    (sessionPhase : SessionPhase) : Except Error Journal :=
  match j.ticks.find? (·.idempotencyKey = command.idempotencyKey) with
  | some existing => do
      require (j.runId = command.runId ∧ existing.tickId = command.tickId
          ∧ existing.tickHash = command.tickHash
          ∧ existing.sessionPhase = sessionPhase)
        (.conflict "Continuous Runtime tick idempotency conflict")
      return j
  | none => do
      require (command.runId = j.runId) (.notFound command.runId)
      require (j.requestScopeHash = command.requestScopeHash
          ∧ j.providerConfigurationHash = command.providerConfigurationHash
          ∧ j.researchConfigurationHash = command.researchConfigurationHash)
        (.conflict "Runtime Tick command does not match its parent run")
      let sequence := j.currentTickSequence + 1
      require (∀ tick ∈ j.ticks, tick.tickId ≠ command.tickId)
        (.integrityError "continuous_runtime_tick_pkey")
      require (∀ tick ∈ j.ticks, tick.tickSequence ≠ sequence)
        (.integrityError "continuous_runtime_tick_run_id_tick_sequence_key")
      let tick : Tick := {
        tickId := command.tickId
        idempotencyKey := command.idempotencyKey
        tickHash := command.tickHash
        sessionPhase := sessionPhase
        tickSequence := sequence
        status := .pending
        version := 1
        fencingToken := 0
        lease := none
        providerAttemptId := none
        evidenceCommitId := none
        changeDecisionId := none
        receipt := none
        lastError := none
        retryAt := none }
      let j ← updateRun { j with ticks := j.ticks ++ [tick] } (stateForPhase sessionPhase)
      return { j with currentTickSequence := sequence }.insertEvent
        (some command.tickId) .tickAdmitted now none

-- ==== claiming

def claimLocked (now leaseDuration : Instant)
    (claimId runId tickId : String) (tickSequence version : Nat) :
    Except Error (ClaimedRuntimeTick × Journal) := do
  let leaseExpiresAt := now + leaseDuration
  let (row, j) ← j.updateTick runId tickId
    (fun tick => tick.status = .pending && tick.version = version)
    fun tick => { tick with
      status := .inProgress
      version := tick.version + 1
      fencingToken := tick.fencingToken + 1
      lease := some ⟨claimId, now, leaseExpiresAt, now⟩
      retryAt := none }
  let row ← fetchOne row (.claimRejected "Continuous tick claim rejected by version fencing")
  let claim ← ClaimedRuntimeTick.make runId tickId tickSequence claimId
    row.fencingToken row.version now leaseExpiresAt now
  return (claim, j.insertEvent (some tickId) .tickClaimed now (some row.fencingToken))

def claimNext (now leaseDuration : Instant)
    (claimId runId : String) : Except Error (ClaimedRuntimeTick × Journal) := do
  let due := (sortBy (·.tickSequence) j.ticks).filter (Tick.isDue now)
  let tick ← fetchOne (if runId = j.runId then due.head? else none)
    (.claimRejected "no claimable Continuous tick")
  j.claimLocked now leaseDuration claimId runId tick.tickId tick.tickSequence tick.version

/-- The tick in progress is taken from its holder, once their lease has
run out. -/
def takeOver (now : Instant) (runId : String) (tick : Tick) : Except Error (Tick × Journal) := do
  require (¬ tick.lease.any (now < ·.expiresAt))
    (.claimRejected "Continuous tick has an active lease")
  let (_, j) ← j.updateTick runId tick.tickId (fun row => row.version = tick.version) Tick.released
  return ({ tick with status := .pending, version := tick.version + 1 },
    j.insertEvent (some tick.tickId) .leaseExpired now (some tick.fencingToken))

def takeOverIfHeld (now : Instant) (runId : String) (tick : Tick) : Except Error (Tick × Journal) :=
  if tick.status = .inProgress then j.takeOver now runId tick
  else .ok (tick, j)

/-- `claim_tick`. The retry that has to be due is the one the row had
when it was read. -/
def claimTick (now leaseDuration : Instant) (claimId runId tickId : String) :
    Except Error (ClaimedRuntimeTick × Journal) := do
  let tick ← fetchOne (j.tick? runId tickId) (.notFound tickId)
  let (tick, j) ← j.takeOverIfHeld now runId tick
  require (tick.status = .pending)
    (.claimRejected "Continuous tick is terminal and cannot be claimed")
  require (tick.retryAt.all (· ≤ now)) (.claimRejected "Continuous tick retry is not due")
  j.claimLocked now leaseDuration claimId runId tickId tick.tickSequence tick.version

-- ==== under the claim

def heartbeat (j : Journal) (now leaseDuration : Instant) (claim : ClaimedRuntimeTick) :
    Except Error (ClaimedRuntimeTick × Journal) := do
  let leaseExpiresAt := now + leaseDuration
  let (row, j) ← j.updateTick claim.runId claim.tickId (claim.holds now) fun tick => { tick with
      lease := tick.lease.map fun lease =>
        { lease with heartbeatAt := now, expiresAt := leaseExpiresAt }
      version := tick.version + 1 }
  let row ← fetchOne row (.claimRejected "Continuous tick heartbeat rejected by fencing")
  let claim' ← ClaimedRuntimeTick.make claim.runId claim.tickId
    claim.tickSequence claim.claimId claim.fencingToken row.version
    claim.leaseAcquiredAt leaseExpiresAt now
  return (claim', j.insertEvent (some claim.tickId) .tickHeartbeat now (some claim.fencingToken))

def completeTick (now : Instant) (claim : ClaimedRuntimeTick)
    (receipt : RuntimeTickReceipt) (runState : RunState) :
    Except Error Journal := do
  require (receipt.runId = claim.runId ∧ receipt.tickId = claim.tickId
      ∧ receipt.tickSequence = claim.tickSequence
      ∧ receipt.claimId = claim.claimId
      ∧ receipt.fencingToken = claim.fencingToken)
    (.claimRejected "Runtime Tick receipt does not match active fencing")
  let taken := j.ticks.any fun tick =>
    tick.receipt.any fun other => other.receiptId = receipt.receiptId
  let (row, j) ← j.updateTick claim.runId claim.tickId (claim.holds now) fun tick => { tick with
      status := .completed
      version := tick.version + 1
      lease := none
      receipt := some receipt
      lastError := none
      retryAt := none }
  let _ ← fetchOne row (.claimRejected "Continuous tick completion rejected by fencing")
  require (taken = false) (.integrityError "continuous_runtime_tick_receipt_id_key")
  let j ← j.updateRunState runState now
  return j.insertEvent (some claim.tickId) .tickCompleted now (some claim.fencingToken)

def failTick (now : Instant) (claim : ClaimedRuntimeTick)
    (error : String) (retryable : Bool) (retryAt : Option Instant) :
    Except Error Journal := do
  require (¬ (retryable ∧ retryAt = none))
    (.raised (.valueError "retryable failure requires retry_at"))
  let (row, j) ← j.updateTick claim.runId claim.tickId (claim.holds now) fun tick => { tick with
      status := if retryable then .pending else .failed
      version := tick.version + 1
      lease := none
      lastError := some error
      retryAt := retryAt }
  let _ ← fetchOne row (.claimRejected "Continuous tick failure rejected by fencing")
  let j ← j.updateRunState (if retryable then .retrying else .failed) now
  return j.insertEvent (some claim.tickId) .tickFailed now (some claim.fencingToken)

-- ==== provider attempts

/-- `INSERT INTO continuous_provider_attempt`, under its unique keys. -/
def insertAttempt (attempt : ProviderAttempt) : Except Error Journal := do
  require (∀ other ∈ j.attemptsOf attempt.tickId, other.attemptNumber ≠ attempt.attemptNumber)
    (.integrityError "continuous_provider_attempt_run_id_tick_id_attempt_number_key")
  require (∀ other ∈ j.attemptsOf attempt.tickId, other.fencingToken ≠ attempt.fencingToken)
    (.integrityError "continuous_provider_attempt_run_id_tick_id_fencing_token_key")
  return { j with
    attempts := j.attempts ++ [attempt]
    attemptSequence := attempt.attemptId }

/-- `start_provider_attempt`: the attempt's id, and the version the claim
has from here on. -/
def startProviderAttempt (now : Instant)
    (claim : ClaimedRuntimeTick) : Except Error ((Nat × Nat) × Journal) := do
  let attemptNumber := ((j.attemptsOf claim.tickId).map (·.attemptNumber)).foldr max 0 + 1
  let tick ← fetchOne ((j.tick? claim.runId claim.tickId).filter (claim.holds now))
    (.claimRejected "Provider Attempt start rejected by fencing")
  let attemptId := j.attemptSequence + 1
  let j ← j.insertAttempt {
    attemptId := attemptId
    tickId := tick.tickId
    attemptNumber := attemptNumber
    claimId := claim.claimId
    fencingToken := claim.fencingToken
    tickVersion := claim.tickVersion
    startedAt := now
    completedAt := none
    status := .started
    sourceManifest := none }
  let (row, j) ← j.updateTick claim.runId claim.tickId (claim.holds now) fun tick => { tick with
      providerAttemptId := some attemptId
      version := tick.version + 1 }
  let row ← fetchOne row (.claimRejected "Provider Attempt pointer rejected by fencing")
  return ((attemptId, row.version), j.insertEvent (some claim.tickId)
    .providerAttemptStarted now (some claim.fencingToken))

/-- `WHERE attempt_id AND tick_id AND claim_id AND fencing_token AND status
= 'STARTED' AND started_at <= completed_at`. -/
def completes (claim : ClaimedRuntimeTick) (attemptId : Nat)
    (completedAt : Instant) (attempt : ProviderAttempt) : Bool :=
  attempt.attemptId = attemptId && attempt.tickId = claim.tickId && attempt.claimId = claim.claimId
    && attempt.fencingToken = claim.fencingToken
    && attempt.status = .started && attempt.startedAt ≤ completedAt

def completeProviderAttempt (now : Instant) (claim : ClaimedRuntimeTick)
    (attemptId : Nat) (outcome : ProviderAttemptOutcome) : Except Error Journal := do
  require (1 ≤ attemptId) (.raised (.valueError "attempt_id must be positive"))
  let _ ← fetchOne ((j.tick? claim.runId claim.tickId).filter (claim.holds now))
    (.claimRejected "Provider Attempt completion rejected by fencing")
  let matching := completes claim attemptId outcome.completedAt
  require (j.attempts.any matching) (.claimRejected
    "Provider Attempt completion rejected by identity fencing")
  return { j with
    attempts := j.attempts.map fun attempt =>
      if matching attempt then { attempt with
        completedAt := some outcome.completedAt
        status := outcome.status
        sourceManifest := outcome.sourceManifest }
      else attempt }.insertEvent (some claim.tickId)
        .providerAttemptCompleted now (some claim.fencingToken)

-- ==== evidence

/-- `INSERT INTO continuous_evidence_commit .. ON CONFLICT (attempt_id) DO
NOTHING`. -/
def insertEvidence (evidence : EvidenceCommit) : Except Error Journal :=
  if j.evidence.any (·.attemptId = evidence.attemptId) then .ok j
  else do
    require (∀ other ∈ j.evidence, other.evidenceCommitId ≠ evidence.evidenceCommitId)
      (.integrityError "continuous_evidence_commit_pkey")
    return { j with evidence := j.evidence ++ [evidence] }

/-- The current evidence of the scope becomes this evidence, unless its
material is the same: whether it did. -/
def advanceCurrent (fencingToken : Nat)
    (evidence : EvidenceCommit) : Except Error (Bool × Journal) :=
  match j.current.find? (·.evidenceScope = evidence.evidenceScope) with
  | none => .ok (true, { j with current := j.current ++ [{
      evidenceScope := evidence.evidenceScope
      evidenceCommitId := evidence.evidenceCommitId
      evidenceCommitHash := evidence.commitHash
      materialIdentityHash := evidence.materialIdentityHash
      version := 1
      lastAcceptedFencingToken := fencingToken }] })
  | some current =>
    if current.materialIdentityHash = evidence.materialIdentityHash then
      .ok (false, j)
    else do
      let advanced : CurrentEvidence := { current with
        evidenceCommitId := evidence.evidenceCommitId
        evidenceCommitHash := evidence.commitHash
        materialIdentityHash := evidence.materialIdentityHash
        version := current.version + 1
        lastAcceptedFencingToken := fencingToken }
      guardCurrentEvidenceMutation current advanced
      return (true, { j with
        current := j.current.map fun row =>
          if row.evidenceScope = evidence.evidenceScope then advanced
          else row })

/-- `commit_evidence`: whether the current evidence advanced, and the
version the claim has from here on. -/
def commitEvidence (now : Instant) (claim : ClaimedRuntimeTick)
    (attempt : ProviderAttemptSnapshot) (evidence : EvidenceCommit) :
    Except Error ((Bool × Nat) × Journal) := do
  require (attempt.status = .succeeded ∧ attempt.attemptId = evidence.attemptId
      ∧ attempt.runId = claim.runId ∧ attempt.tickId = claim.tickId
      ∧ evidence.runId = claim.runId ∧ evidence.tickId = claim.tickId
      ∧ attempt.sourceManifest = some evidence.sourceManifest)
    (.conflict "Evidence does not match a successful validated Provider Attempt")
  let _ ← fetchOne ((j.tick? claim.runId claim.tickId).filter (claim.holds now))
    (.claimRejected "Evidence commit rejected by fencing")
  let authoritative ← fetchOne (j.attempts.find? fun row => row.attemptId = attempt.attemptId
      && row.tickId = claim.tickId && row.status = .succeeded)
    (.conflict "Evidence requires a durable successful Provider Attempt")
  require (authoritative.sourceManifest = some evidence.sourceManifest)
    (.conflict "Evidence SourceManifest differs from Provider Attempt")
  let j ← j.insertEvidence evidence
  require (j.evidence.any fun durable =>
      durable.attemptId = evidence.attemptId && durable.evidenceCommitId = evidence.evidenceCommitId
        && durable.commitHash = evidence.commitHash)
    (.conflict "Evidence Attempt idempotency conflict")
  let (advanced, j) ← j.advanceCurrent claim.fencingToken evidence
  let (row, j) ← j.updateTick claim.runId claim.tickId (claim.holds now) fun tick => { tick with
      evidenceCommitId := some evidence.evidenceCommitId
      version := tick.version + 1 }
  let row ← fetchOne row (.claimRejected "Evidence pointer rejected by tick fencing")
  let j := j.insertEvent (some claim.tickId) .evidenceCommitted now (some claim.fencingToken)
  return ((advanced, row.version),
    if advanced then j.insertEvent (some claim.tickId)
      .currentEvidenceChanged now (some claim.fencingToken)
    else j)

-- ==== change decisions

/-- The evidence a decision rests on is in the tables as it cites it, and
the current evidence of its scope agrees. -/
def requireLineage (decision : ChangeDecision) : Except Error Unit := do
  let evidence ← fetchOne (j.evidence.find? fun row =>
      row.evidenceCommitId = decision.evidenceCommitId
        && row.runId = decision.runId && row.tickId = decision.tickId
        && row.commitHash = decision.evidenceCommitHash
        && row.attemptId = decision.providerAttemptId
        && row.materialIdentityHash = decision.currentMaterialIdentityHash)
    (.conflict "Change Decision current Evidence lineage is not durable")
  require (∀ previous ∈ decision.previousEvidence, j.evidence.any fun row =>
      row.evidenceCommitId = previous.commitId && row.runId = decision.runId
        && row.commitHash = previous.commitHash
        && row.materialIdentityHash = previous.materialIdentityHash)
    (.conflict "Change Decision previous Evidence lineage is not durable")
  let current ← fetchOne (j.current.find? (·.evidenceScope = evidence.evidenceScope))
    (.conflict "Change Decision requires current validated Evidence")
  if decision.decisionType = .noMaterialChange then
    require (decision.previousEvidence.map (·.commitId) = some current.evidenceCommitId
      ∧ current.materialIdentityHash = decision.currentMaterialIdentityHash)
      (.conflict "NO_MATERIAL_CHANGE must preserve the previous Evidence pointer")
  else
    require (current.materialIdentityHash = decision.currentMaterialIdentityHash)
      (.conflict "Change Decision material identity differs from current Evidence")

/-- `INSERT INTO continuous_change_decision .. ON CONFLICT (run_id, tick_id)
DO NOTHING`. -/
def insertDecision (decision : ChangeDecision) : Except Error Journal :=
  if j.decisions.any (·.tickId = decision.tickId) then .ok j
  else do
    require (∀ other ∈ j.decisions, other.decisionId ≠ decision.decisionId)
      (.integrityError "continuous_change_decision_pkey")
    return { j with decisions := j.decisions ++ [decision] }

def recordDecision (now : Instant) (claim : ClaimedRuntimeTick)
    (decision : ChangeDecision) : Except Error (Nat × Journal) := do
  j.requireLineage decision
  let j ← j.insertDecision decision
  require (j.decisions.any fun durable => durable.tickId = decision.tickId
      && durable.decisionId = decision.decisionId
      && durable.decisionHash = decision.decisionHash)
    (.conflict "Change Decision tick idempotency conflict")
  let (row, j) ← j.updateTick claim.runId claim.tickId (claim.holds now) fun tick => { tick with
      changeDecisionId := some decision.decisionId
      version := tick.version + 1 }
  let row ← fetchOne row (.claimRejected "Change Decision pointer rejected by fencing")
  return (row.version, j.insertEvent (some claim.tickId) .changeDecided now
    (some claim.fencingToken))

/-- `record_change_decision`: the version the claim has from here on. -/
def recordChangeDecision (now : Instant) (claim : ClaimedRuntimeTick) (decision : ChangeDecision) :
    Except Error (Nat × Journal) := do
  require (decision.runId = claim.runId ∧ decision.tickId = claim.tickId)
    (.conflict "Change Decision does not belong to the claimed tick")
  let active ← fetchOne ((j.tick? claim.runId claim.tickId).filter (claim.holdsFence now))
    (.claimRejected "Change Decision rejected by fencing")
  match active.changeDecisionId with
  | some decisionId => do
      require (decisionId = decision.decisionId ∧ (active.version = claim.tickVersion
            ∨ active.version = claim.tickVersion + 1))
        (.conflict "tick already has a different Change Decision")
      return (active.version, j)
  | none => do
      require (active.version = claim.tickVersion)
        (.claimRejected "Change Decision rejected by tick version fencing")
      j.recordDecision now claim decision

-- ==== resuming

/-- `UPDATE continuous_provider_attempt SET status = 'LEASE_EXPIRED' WHERE
tick_id AND fencing_token AND status = 'STARTED'`. -/
def expireAttempts (now : Instant) (tick : Tick) : Journal :=
  { j with attempts := j.attempts.map fun attempt =>
      if attempt.tickId = tick.tickId ∧ attempt.fencingToken = tick.fencingToken
          ∧ attempt.status = .started then
        { attempt with completedAt := some now, status := .leaseExpired }
      else attempt }

/-- A tick whose lease has run out is taken from its holder, and the
attempt of that fence is settled. -/
def recover (now : Instant) (j : Journal) (tick : Tick) :
    Except Error Journal := do
  let j := j.expireAttempts now tick
  let (_, j) ← j.updateTick j.runId tick.tickId
    (fun row => row.version = tick.version) Tick.released
  return j.insertEvent (some tick.tickId) .leaseExpired now (some tick.fencingToken)

def resume (now : Instant) (runId : String) : Except Error Journal := do
  require (runId = j.runId) (.notFound runId)
  let rows := (sortBy (·.tickSequence) j.ticks).filter (Tick.isExpired now)
  let j ← rows.foldlM (recover now) j
  if rows = [] then return j
  else do
    let j ← j.updateRunState .retrying now
    return j.insertEvent none .runRecovered now none

end Journal

-- ==== runs

/-- An operation with its arguments. A claim is any value a worker may
hold, current or not. -/
inductive Operation where
  | admitTick (command : RuntimeTickCommand) (sessionPhase : SessionPhase)
  | claimNext (runId claimId : String) (leaseDuration : Nat)
  | claimTick (runId tickId claimId : String) (leaseDuration : Nat)
  | heartbeat (claim : ClaimedRuntimeTick) (leaseDuration : Nat)
  | completeTick (claim : ClaimedRuntimeTick) (receipt : RuntimeTickReceipt) (runState : RunState)
  | failTick (claim : ClaimedRuntimeTick) (error : String) (retryable : Bool)
      (retryAt : Option Instant)
  | startProviderAttempt (claim : ClaimedRuntimeTick)
  | completeProviderAttempt (claim : ClaimedRuntimeTick) (attemptId : Nat)
      (outcome : ProviderAttemptOutcome)
  | commitEvidence (claim : ClaimedRuntimeTick)
      (attempt : ProviderAttemptSnapshot) (evidence : EvidenceCommit)
  | recordChangeDecision (claim : ClaimedRuntimeTick) (decision : ChangeDecision)
  | resume (runId : String)

def Operation.claim? : Operation → Option ClaimedRuntimeTick
  | .heartbeat claim _ => some claim
  | .completeTick claim _ _ => some claim
  | .failTick claim _ _ _ => some claim
  | .startProviderAttempt claim => some claim
  | .completeProviderAttempt claim _ _ => some claim
  | .commitEvidence claim _ _ => some claim
  | .recordChangeDecision claim _ => some claim
  | _ => none

def Operation.perform (now : Instant) (j : Journal) : Operation → Except Error Journal
  | .admitTick command sessionPhase => j.admitTick now command sessionPhase
  | .claimNext runId claimId leaseDuration => (·.2) <$> j.claimNext now leaseDuration claimId runId
  | .claimTick runId tickId claimId leaseDuration =>
    (·.2) <$> j.claimTick now leaseDuration claimId runId tickId
  | .heartbeat claim leaseDuration => (·.2) <$> j.heartbeat now leaseDuration claim
  | .completeTick claim receipt runState => j.completeTick now claim receipt runState
  | .failTick claim error retryable retryAt => j.failTick now claim error retryable retryAt
  | .startProviderAttempt claim => (·.2) <$> j.startProviderAttempt now claim
  | .completeProviderAttempt claim attemptId outcome =>
    j.completeProviderAttempt now claim attemptId outcome
  | .commitEvidence claim attempt evidence => (·.2) <$> j.commitEvidence now claim attempt evidence
  | .recordChangeDecision claim decision => (·.2) <$> j.recordChangeDecision now claim decision
  | .resume runId => j.resume now runId

/-- The tables and the clock. -/
structure System where
  now : Instant
  journal : Journal

/-- What happens: time passes, somebody else draws attempt ids, or a
worker performs an operation. -/
inductive Event where
  | elapse (seconds : Nat)
  | draw (ids : Nat)
  | perform (operation : Operation)

/-- One event. -/
def step (event : Event) (s : System) : System :=
  match event with
  | .elapse seconds => { s with now := s.now + seconds }
  | .draw ids => { s with journal := { s.journal with
      attemptSequence := s.journal.attemptSequence + ids } }
  | .perform operation =>
    match operation.perform s.now s.journal with
    | .ok journal => { s with journal := journal }
    | .error _ => s

/-- The run has just been created. -/
def Starts (s : System) : Prop :=
  ∃ runId request provider research ids,
    s.journal = .created runId request provider research ids s.now

end MarketRegimeAlpha.Continuous
