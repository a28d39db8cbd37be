/-
The tables of one Continuous Research run, and the values its operations
take and return.

# The rows

The run's row, its tick rows in the order they were inserted, the rows of
the provider attempts and of the evidence commits of those ticks, the
current evidence of each scope, the change decisions and the events. The
four lease columns of a tick row are all set while the tick is
`IN_PROGRESS` and all null otherwise, by a CHECK of the table: they are
one optional `TickLease`. `attempt_id` is drawn from an identity sequence
that other runs draw from too.

# The triggers

A tick row advances its version by one with every update, is immutable
once it is terminal, and keeps its claim and its token while it is in
progress. An archived run row is immutable. A current-evidence row
advances its version by one, never takes a smaller fencing token, and
never advances to the evidence or the material it already has.
-/
import MarketRegimeAlpha.Lib.Checked
import MarketRegimeAlpha.Lib.OrderStat

namespace MarketRegimeAlpha.Continuous

open Lib

/-- Seconds since the epoch, in UTC. -/
abbrev Instant := Nat

-- ==== the vocabulary

inductive SessionPhase where
  | preMarket
  | morningSession
  | middayRecess
  | afternoonSession
  | decisionWindow
  | marketClosed
  deriving DecidableEq

inductive RunState where
  | created
  | preparing
  | monitoring
  | waitingForNewData
  | recomputing
  | decisionWindowOpen
  | marketClosed
  | archived
  | dataBlocked
  | degraded
  | retrying
  | failed
  | cancelled
  deriving DecidableEq

def stateForPhase : SessionPhase → RunState
  | .preMarket => .preparing
  | .morningSession => .monitoring
  | .middayRecess => .waitingForNewData
  | .afternoonSession => .monitoring
  | .decisionWindow => .decisionWindowOpen
  | .marketClosed => .marketClosed

inductive TickStatus where
  | pending
  | inProgress
  | completed
  | failed
  | dataBlocked
  deriving DecidableEq

/-- `COMPLETED`, `FAILED` or `DATA_BLOCKED`. -/
def TickStatus.isTerminal : TickStatus → Bool
  | .completed => true
  | .failed => true
  | .dataBlocked => true
  | _ => false

inductive AttemptStatus where
  | started
  | succeeded
  | failed
  | timedOut
  | invalidResponse
  | rateLimited
  | circuitOpen
  | leaseExpired
  deriving DecidableEq

inductive DecisionType where
  | initialEvidence
  | materialChange
  | noMaterialChange
  | dataInsufficient
  deriving DecidableEq

inductive EventType where
  | runCreated
  | runStatusChanged
  | runRecovered
  | tickAdmitted
  | tickClaimed
  | tickHeartbeat
  | tickCompleted
  | tickFailed
  | leaseExpired
  | providerAttemptStarted
  | providerAttemptCompleted
  | evidenceCommitted
  | currentEvidenceChanged
  | changeDecided
  deriving DecidableEq

/-- What an operation raises. `integrityError` names the constraint the
database found broken, `raiseException` is the text of a trigger. -/
inductive Error where
  | raised (e : Raised)
  | conflict (message : String)
  | claimRejected (message : String)
  | notFound (key : String)
  | integrityError (constraint : String)
  | raiseException (message : String)
  deriving DecidableEq

-- ==== what the operations take

structure RuntimeTickCommand where
  (tickId tickHash idempotencyKey runId requestScopeHash providerConfigurationHash
    researchConfigurationHash : String)

/-- A claim on a tick, with what its `__post_init__` has checked. -/
structure ClaimedRuntimeTick where
  (runId tickId : String)
  tickSequence : Nat
  claimId : String
  (fencingToken tickVersion : Nat)
  (leaseAcquiredAt leaseExpiresAt heartbeatAt : Instant)
  tickSequence_pos : 1 ≤ tickSequence
  fencingToken_pos : 1 ≤ fencingToken
  tickVersion_pos : 1 ≤ tickVersion
  acquired_before_expiry : leaseAcquiredAt < leaseExpiresAt
  heartbeat_inside : leaseAcquiredAt ≤ heartbeatAt ∧ heartbeatAt < leaseExpiresAt

/-- `ClaimedRuntimeTick.__init__`. -/
def ClaimedRuntimeTick.make (runId tickId : String) (tickSequence : Nat) (claimId : String)
    (fencingToken tickVersion : Nat) (leaseAcquiredAt leaseExpiresAt heartbeatAt : Instant) :
    Except Error ClaimedRuntimeTick :=
  if hsequence : 1 ≤ tickSequence then
    if htoken : 1 ≤ fencingToken then
      if hversion : 1 ≤ tickVersion then
        if hlease : leaseAcquiredAt < leaseExpiresAt then
          if hheartbeat : leaseAcquiredAt ≤ heartbeatAt ∧ heartbeatAt < leaseExpiresAt then
            .ok ⟨runId, tickId, tickSequence, claimId, fencingToken,
              tickVersion, leaseAcquiredAt, leaseExpiresAt, heartbeatAt,
              hsequence, htoken, hversion, hlease, hheartbeat⟩
          else .error (.raised (.valueError "heartbeat must be inside the active lease"))
        else .error (.raised (.valueError "lease must expire after acquisition"))
      else .error (.raised (.valueError "tick_version must be a positive integer"))
    else .error (.raised (.valueError "fencing_token must be a positive integer"))
  else .error (.raised (.valueError "tick_sequence must be a positive integer"))

structure RuntimeTickReceipt where
  (receiptId receiptHash runId tickId : String)
  tickSequence : Nat
  claimId : String
  fencingToken : Nat
  deriving DecidableEq

structure SourceManifest where
  (id hash : String)
  deriving DecidableEq

/-- How a worker ended a provider attempt, with what its `__post_init__`
has checked: the status is a worker's terminal one, and exactly a
successful attempt carries a manifest. -/
structure ProviderAttemptOutcome where
  status : AttemptStatus
  completedAt : Instant
  sourceManifest : Option SourceManifest
  status_worker : status ≠ .started ∧ status ≠ .leaseExpired
  manifest_iff : status = .succeeded ↔ sourceManifest.isSome

structure ProviderAttemptSnapshot where
  attemptId : Nat
  (runId tickId : String)
  status : AttemptStatus
  sourceManifest : Option SourceManifest

structure EvidenceCommit where
  (evidenceCommitId commitHash runId tickId : String)
  attemptId : Nat
  evidenceScope : String
  sourceManifest : SourceManifest
  materialIdentityHash : String
  deriving DecidableEq

structure PreviousEvidence where
  (commitId commitHash materialIdentityHash : String)
  deriving DecidableEq

structure ChangeDecision where
  (decisionId decisionHash runId tickId : String)
  providerAttemptId : Nat
  (evidenceCommitId evidenceCommitHash : String)
  previousEvidence : Option PreviousEvidence
  decisionType : DecisionType
  currentMaterialIdentityHash : String
  deriving DecidableEq

-- ==== the rows

structure TickLease where
  claimId : String
  (acquiredAt expiresAt heartbeatAt : Instant)
  deriving DecidableEq

structure Tick where
  (tickId idempotencyKey tickHash : String)
  sessionPhase : SessionPhase
  tickSequence : Nat
  status : TickStatus
  (version fencingToken : Nat)
  lease : Option TickLease
  providerAttemptId : Option Nat
  (evidenceCommitId changeDecisionId : Option String)
  receipt : Option RuntimeTickReceipt
  lastError : Option String
  retryAt : Option Instant
  deriving DecidableEq

structure ProviderAttempt where
  attemptId : Nat
  tickId : String
  attemptNumber : Nat
  claimId : String
  (fencingToken tickVersion : Nat)
  startedAt : Instant
  completedAt : Option Instant
  status : AttemptStatus
  sourceManifest : Option SourceManifest
  deriving DecidableEq

structure CurrentEvidence where
  (evidenceScope evidenceCommitId evidenceCommitHash materialIdentityHash : String)
  (version lastAcceptedFencingToken : Nat)
  deriving DecidableEq

structure RuntimeEvent where
  tickId : Option String
  eventType : EventType
  eventTime : Instant
  fencingToken : Option Nat
  deriving DecidableEq

structure Journal where
  (runId requestScopeHash providerConfigurationHash researchConfigurationHash : String)
  status : RunState
  (currentTickSequence version : Nat)
  ticks : List Tick
  attempts : List ProviderAttempt
  evidence : List EvidenceCommit
  current : List CurrentEvidence
  decisions : List ChangeDecision
  events : List RuntimeEvent
  /-- The last `attempt_id` drawn, by this run or another. -/
  attemptSequence : Nat
  deriving DecidableEq

-- ==== the triggers

/-- `guard_continuous_runtime_tick_mutation`, of an update that leaves the
identity columns alone. -/
def guardTickMutation (old new : Tick) : Except Error Unit := do
  require (new.version = old.version + 1)
    (.raiseException "Continuous Runtime tick version must advance by one")
  require (¬ old.status.isTerminal)
    (.raiseException "Terminal Continuous Runtime tick is immutable")
  require (¬ (old.status = .inProgress ∧ new.status = .inProgress
      ∧ (new.lease.map (·.claimId) ≠ old.lease.map (·.claimId)
        ∨ new.fencingToken ≠ old.fencingToken)))
    (.raiseException "Active Continuous Runtime claim cannot be overwritten")

def guardCurrentEvidenceMutation (old new : CurrentEvidence) :
    Except Error Unit := do
  require (new.version = old.version + 1)
    (.raiseException "Continuous current Evidence version must advance by one")
  require (¬ new.lastAcceptedFencingToken < old.lastAcceptedFencingToken) (.raiseException
      "Continuous current Evidence fencing token cannot regress")
  require (¬ (new.evidenceCommitId = old.evidenceCommitId
      ∨ new.materialIdentityHash = old.materialIdentityHash))
    (.raiseException "Identical Evidence must not advance current Evidence")

namespace Journal

variable (j : Journal)

def tick? (runId tickId : String) : Option Tick :=
  if runId = j.runId then j.ticks.find? (·.tickId = tickId) else none

/-- `UPDATE continuous_runtime_tick SET .. WHERE run_id AND tick_id AND ..
RETURNING`: the row as it is now, if one matched. -/
def updateTick (runId tickId : String) (matching : Tick → Bool)
    (set : Tick → Tick) : Except Error (Option Tick × Journal) :=
  match j.tick? runId tickId with
  | none => .ok (none, j)
  | some tick =>
    if matching tick then do
      guardTickMutation tick (set tick)
      return (some (set tick), { j with
        ticks := j.ticks.map fun row => if row.tickId = tickId then set tick else row })
    else .ok (none, j)

/-- `UPDATE continuous_research_run SET status`, under
`guard_continuous_research_run_mutation`. -/
def updateRun (status : RunState) : Except Error Journal := do
  require (j.status ≠ .archived) (.raiseException "Archived Continuous Research run is immutable")
  return { j with status := status, version := j.version + 1 }

def insertEvent (tickId : Option String) (eventType : EventType)
    (now : Instant) (fencingToken : Option Nat) : Journal :=
  { j with events := j.events ++ [⟨tickId, eventType, now, fencingToken⟩] }

def updateRunState (status : RunState) (now : Instant) : Except Error Journal := do
  let j ← j.updateRun status
  return j.insertEvent none .runStatusChanged now none

/-- `WHERE tick_id`, of the provider attempts. -/
def attemptsOf (tickId : String) : List ProviderAttempt :=
  j.attempts.filter (·.tickId = tickId)

/-- The run's rows as `create_or_get` inserts them. -/
def created (runId requestScopeHash providerConfigurationHash researchConfigurationHash : String)
    (attemptSequence : Nat) (now : Instant) : Journal where
  runId := runId
  requestScopeHash := requestScopeHash
  providerConfigurationHash := providerConfigurationHash
  researchConfigurationHash := researchConfigurationHash
  status := .created
  currentTickSequence := 0
  version := 1
  ticks := []
  attempts := []
  evidence := []
  current := []
  decisions := []
  events := [⟨none, .runCreated, now, none⟩]
  attemptSequence := attemptSequence

end Journal

end MarketRegimeAlpha.Continuous
