/-
The journal of a Historical Research run, and the operations on it.

# The tables

A run's row, its session rows in the order of `session_ordinal`, and with
each session row the rows of the attempts and of the stage receipts that
carry its `(run_id, session_id)`. The lease columns of a session row are
all null or all set, by a CHECK of the table: they are one optional
`StageLease`. `claim_id` is UNIQUE over all attempts, and `receipt_id`
and `receipt_hash` over all receipts, of this run and of every other: an
insert that breaks this raises and leaves the tables alone. The events,
the heartbeat and the columns that record when a row changed are read by
nothing here.

An operation that raises changes nothing: it is one transaction.
-/
import MarketRegimeAlpha.Historical.Session

namespace MarketRegimeAlpha.Historical

open Lib

-- ==== the command

inductive RuntimeContract where
  | preE3
  | e3
  deriving DecidableEq

structure HistoricalResearchCommand where
  runId : String
  tradingSessions : List Day
  decisionLocalTime : Nat
  (timezoneName tradingCalendarId : String)
  tradingCalendarHash : Digest
  runtimeScopePolicyId : String
  runtimeScopePolicyHash : Digest
  decisionPolicyId : String
  decisionPolicyHash : Digest
  (targetProtocolReference experimentDefinitionReference : ValidationArtifactReference)
  configurationReferences : List ValidationArtifactReference
  dataAuthorityMode : DataAuthorityMode
  evidenceQualification : EvidenceQualification
  codeRevision : String
  createdAt : Instant
  runtimeContractVersion : RuntimeContract
  sessions_nonempty : tradingSessions ≠ []
  sessions_sorted : tradingSessions.Pairwise (· < ·)

def HistoricalResearchCommand.sessionRequest (platform : Platform)
    (command : HistoricalResearchCommand) (tradingDate : Day) :
    Except Raised ResearchDecisionSessionRequest := do
  require (tradingDate ∈ command.tradingSessions) (.lookupError "KeyError")
  ResearchDecisionSessionRequest.create platform.sessionHash {
    tradingDate := tradingDate
    decisionTime := platform.localInstant command.timezoneName tradingDate command.decisionLocalTime
    materializedAt := command.createdAt
    dataAuthorityMode := command.dataAuthorityMode
    executionMode := .historicalResearch
    evidenceQualification := command.evidenceQualification
    tradingCalendarId := command.tradingCalendarId
    tradingCalendarHash := command.tradingCalendarHash
    runtimeScopePolicyId := command.runtimeScopePolicyId
    runtimeScopePolicyHash := command.runtimeScopePolicyHash
    decisionPolicyId := command.decisionPolicyId
    decisionPolicyHash := command.decisionPolicyHash
    targetProtocolReference := command.targetProtocolReference
    experimentDefinitionReference := command.experimentDefinitionReference
    codeRevision := command.codeRevision
    configurationReferences := command.configurationReferences }

-- ==== the tables

inductive HistoricalRunStatus where
  | pending
  | running
  | complete
  | completeWithBlocks
  | failed
  deriving DecidableEq

def HistoricalRunStatus.isTerminal : HistoricalRunStatus → Bool
  | .complete => true
  | .completeWithBlocks => true
  | .failed => true
  | _ => false

inductive HistoricalSessionStatus where
  | pending
  | running
  | complete
  | blocked
  | failed
  deriving DecidableEq

/-- `status IN ('PENDING', 'RUNNING')`. -/
def HistoricalSessionStatus.isOpen : HistoricalSessionStatus → Bool
  | .pending => true
  | .running => true
  | _ => false

inductive AttemptStatus where
  | active
  | completed
  | expired
  | failed
  deriving DecidableEq

structure StageLease where
  claimId : String
  (acquiredAt expiresAt : Instant)
  deriving DecidableEq

structure AttemptRow where
  attemptNumber : Nat
  claimId : String
  stage : ResearchSessionStage
  fencingToken : Nat
  status : AttemptStatus
  leaseExpiresAt : Instant
  deriving DecidableEq

structure ReceiptRow where
  receiptId : String
  receiptHash : Digest
  stageOrdinal : Nat
  payloadJson : ResearchSessionStageReceipt
  deriving DecidableEq

structure SessionRow where
  sessionId : String
  sessionHash : Digest
  sessionOrdinal : Nat
  tradingDate : Day
  status : HistoricalSessionStatus
  (nextStageOrdinal version fencingToken : Nat)
  lease : Option StageLease
  sessionJson : ResearchDecisionSessionRequest
  attempts : List AttemptRow
  receipts : List ReceiptRow
  deriving DecidableEq

structure Journal where
  command : HistoricalResearchCommand
  contractVersion : RuntimeContract
  status : HistoricalRunStatus
  version : Nat
  sessions : List SessionRow

/-- What an operation raises. -/
inductive Error where
  | raised (e : Raised)
  | historicalResearchConflict (message : String)
  | uniqueViolation
  deriving DecidableEq

/-- An error of a value inside an operation. -/
def ofRaised {α : Type} (x : Except Raised α) : Except Error α := x.mapError .raised

@[simp] theorem ofRaised_ok {α : Type} {x : Except Raised α} {a : α} :
    ofRaised x = .ok a ↔ x = .ok a := by
  cases x with
  | error e => simp [ofRaised, Except.mapError]
  | ok b => simp [ofRaised, Except.mapError]

namespace Journal

def updateSession (j : Journal) (sessionId : String) (f : SessionRow → SessionRow) : Journal :=
  { j with sessions := j.sessions.map fun row => if row.sessionId = sessionId then f row else row }

def session? (j : Journal) (sessionId : String) : Option SessionRow :=
  j.sessions.find? (·.sessionId = sessionId)

def initialRow (ordinal : Nat) (request : ResearchDecisionSessionRequest) : SessionRow where
  sessionId := request.sessionId
  sessionHash := request.sessionHash
  sessionOrdinal := ordinal
  tradingDate := request.tradingDate
  status := .pending
  nextStageOrdinal := 1
  version := 1
  fencingToken := 0
  lease := none
  sessionJson := request
  attempts := []
  receipts := []

end Journal

-- ==== reading it back

structure HistoricalStageClaim where
  sessionId : String
  sessionHash : Digest
  tradingDate : Day
  stage : ResearchSessionStage
  claimId : String
  (attemptNumber fencingToken sessionVersion : Nat)
  leaseExpiresAt : Instant
  completedPrefix : List ResearchSessionStageReceipt

structure HistoricalSessionSnapshot where
  request : ResearchDecisionSessionRequest
  ordinal : Nat
  status : HistoricalSessionStatus
  nextStage : ResearchSessionStage
  (version fencingToken : Nat)
  receipts : List ResearchSessionStageReceipt

structure HistoricalRunSnapshot where
  command : HistoricalResearchCommand
  runtimeContractVersion : RuntimeContract
  status : HistoricalRunStatus
  version : Nat
  sessions : List HistoricalSessionSnapshot

section Reading

variable (platform : Platform)

def restoreReceipt (row : ReceiptRow) :
    Except Error ResearchSessionStageReceipt := do
  let receipt ← ofRaised (ResearchSessionStageReceipt.fromCanonicalDict
    platform.receiptHash row.payloadJson)
  require (row.receiptHash = receipt.receiptHash)
    (.historicalResearchConflict "Historical receipt hash diverged")
  return receipt

variable (row : SessionRow)

def loadReceipts : Except Error (List ResearchSessionStageReceipt) :=
  (sortBy (·.stageOrdinal) row.receipts).mapM (restoreReceipt platform)

def restoreSession (receipts : List ResearchSessionStageReceipt) :
    Except Error HistoricalSessionSnapshot := do
  let request ← ofRaised (ResearchDecisionSessionRequest.fromCanonicalDict
    platform.sessionHash row.sessionJson)
  require (row.sessionHash = request.sessionHash ∧ request.sessionId = row.sessionId)
    (.historicalResearchConflict "Historical session owner hash diverged")
  require (receipts.map (·.stage) = stages.take receipts.length)
    (.historicalResearchConflict "Historical stage projection diverged")
  let nextStage ← ofRaised (stageAt (row.nextStageOrdinal - 1))
  return {
    request := request
    ordinal := row.sessionOrdinal
    status := row.status
    nextStage := nextStage
    version := row.version
    fencingToken := row.fencingToken
    receipts := receipts }

def snapshotSession : Except Error HistoricalSessionSnapshot := do
  let receipts ← loadReceipts platform row
  restoreSession platform row receipts

def getRun (j : Journal) : Except Error HistoricalRunSnapshot := do
  require (j.contractVersion = j.command.runtimeContractVersion) (.historicalResearchConflict
      "Historical run contract projection diverged from command identity")
  let sessions ← j.sessions.mapM (snapshotSession platform)
  require (sessions.length = j.command.tradingSessions.length)
    (.historicalResearchConflict "Historical session projection diverged")
  return {
    command := j.command
    runtimeContractVersion := j.contractVersion
    status := j.status
    version := j.version
    sessions := sessions }

def getSession (j : Journal) (sessionId : String) :
    Except Error HistoricalSessionSnapshot :=
  match j.session? sessionId with
  | none => .error (.raised (.lookupError "KeyError"))
  | some row => snapshotSession platform row

end Reading

-- ==== the operations

/-- `create_or_get`, of a run that is not there yet: its row, and one row
for each of its sessions. Two sessions of one id are one row, and the
count that follows raises. -/
def createOrGet (platform : Platform) (command : HistoricalResearchCommand) :
    Except Error Journal := do
  let requests ← ofRaised (command.tradingSessions.mapM (command.sessionRequest platform))
  require ((requests.map (·.sessionId)).Nodup) (.historicalResearchConflict
      "Historical Research session set is incomplete")
  return {
    command := command
    contractVersion := command.runtimeContractVersion
    status := .pending
    version := 1
    sessions := requests.zipIdx.map fun (request, index) => Journal.initialRow (index + 1) request }

def finishRun (j : Journal) : Journal :=
  let active := j.sessions.countP (·.status.isOpen)
  let blocked := j.sessions.countP (·.status = .blocked)
  let failed := j.sessions.countP (·.status = .failed)
  { j with
    status :=
      if active ≠ 0 then .running
      else if failed ≠ 0 then .failed
      else if blocked ≠ 0 then .completeWithBlocks
      else .complete
    version := j.version + 1 }

/-- `UPDATE historical_research_attempt SET status WHERE claim_id AND
status = 'ACTIVE'`. -/
def settleAttempt (claimId : String) (status : AttemptStatus)
    (attempts : List AttemptRow) : List AttemptRow :=
  attempts.map fun attempt =>
    if attempt.claimId = claimId ∧ attempt.status = .active then
      { attempt with status := status }
    else attempt

variable (row : SessionRow)

def expireLease : SessionRow :=
  match row.status, row.lease with
  | .running, some lease => { row with
      attempts := settleAttempt lease.claimId .expired row.attempts }
  | _, _ => row

/-- Somebody holds the session, and their lease has not run out. -/
def isHeld (now : Instant) : Bool :=
  row.status = .running && row.lease.any fun lease => now < lease.expiresAt

def claimedRow (stage : ResearchSessionStage)
    (claimId : String) (now expiresAt : Instant) : SessionRow :=
  let expired := expireLease row
  { row with
    status := .running
    version := row.version + 1
    fencingToken := row.fencingToken + 1
    lease := some ⟨claimId, now, expiresAt⟩
    attempts := expired.attempts ++ [{
      attemptNumber := row.attempts.length + 1
      claimId := claimId
      stage := stage
      fencingToken := row.fencingToken + 1
      status := .active
      leaseExpiresAt := expiresAt }] }

/-- `claim_next`, at `now`, by a worker that leases for `leaseDuration`
and draws `claimId`. -/
def claimNext (platform : Platform) (j : Journal) (now leaseDuration : Instant) (claimId : String) :
    Except Error (Option HistoricalStageClaim × Journal) :=
  let expiresAt := now + leaseDuration
  if j.status.isTerminal then .ok (none, j)
  else
    match j.sessions.find? (·.status.isOpen) with
    | none => .ok (none, finishRun j)
    | some row =>
      if isHeld row now then .ok (none, j)
      else do
        let stage ← ofRaised (stageAt (row.nextStageOrdinal - 1))
        require (∀ other ∈ j.sessions, ∀ attempt ∈ other.attempts,
            attempt.claimId ≠ claimId) .uniqueViolation
        let pre ← loadReceipts platform row
        let claimed := claimedRow row stage claimId now expiresAt
        let j := j.updateSession row.sessionId fun _ => claimed
        return (some {
            sessionId := row.sessionId
            sessionHash := row.sessionHash
            tradingDate := row.tradingDate
            stage := stage
            claimId := claimId
            attemptNumber := row.attempts.length + 1
            fencingToken := claimed.fencingToken
            sessionVersion := claimed.version
            leaseExpiresAt := expiresAt
            completedPrefix := pre },
          { j with status := .running, version := j.version + 1 })

variable (receipt : ResearchSessionStageReceipt)

def receiptRow : ReceiptRow where
  receiptId := receipt.receiptId
  receiptHash := receipt.receiptHash
  stageOrdinal := receipt.stage.ordinal
  payloadJson := receipt.toCanonicalDict

/-- What a receipt makes of its session: `status` and
`next_stage_ordinal`. -/
def statusAfter : HistoricalSessionStatus × Nat :=
  if receipt.status = .complete ∧ receipt.stage ≠ .performance then
    (.pending, receipt.stage.ordinal + 1)
  else if receipt.status = .complete then (.complete, receipt.stage.ordinal)
  else (.blocked, receipt.stage.ordinal)

def recordedRow (claimId : String) (receipt : ResearchSessionStageReceipt) : SessionRow :=
  { row with
    status := (statusAfter receipt).1
    nextStageOrdinal := (statusAfter receipt).2
    version := row.version + 1
    lease := none
    attempts := settleAttempt claimId .completed row.attempts
    receipts := row.receipts ++ [receiptRow receipt] }

def bindsClaim (claim : HistoricalStageClaim) (receipt : ResearchSessionStageReceipt) : Prop :=
  receipt.sessionId = claim.sessionId ∧ receipt.sessionHash = claim.sessionHash
    ∧ receipt.stage = claim.stage
    ∧ receipt.predecessorReceiptIds = claim.completedPrefix.map (·.receiptId)

instance (claim : HistoricalStageClaim) (receipt : ResearchSessionStageReceipt) :
    Decidable (bindsClaim claim receipt) :=
  inferInstanceAs (Decidable (_ ∧ _))

def holdsClaim (claim : HistoricalStageClaim) (now : Instant) : Prop :=
  row.status = .running ∧ row.version = claim.sessionVersion ∧ row.fencingToken = claim.fencingToken
    ∧ ∃ lease ∈ row.lease, lease.claimId = claim.claimId ∧ now < lease.expiresAt

instance (row : SessionRow) (claim : HistoricalStageClaim) (now : Instant) :
    Decidable (holdsClaim row claim now) :=
  inferInstanceAs (Decidable (_ ∧ _))

/-- The transaction of `record_stage`, at `now`; `taken` are the receipts
of the other runs. -/
def recordStage (j : Journal) (taken : List (String × Digest))
    (now : Instant) (claim : HistoricalStageClaim)
    (receipt : ResearchSessionStageReceipt) : Except Error Journal := do
  require (bindsClaim claim receipt) (.historicalResearchConflict
    "Historical stage receipt does not bind the active claim")
  match j.session? claim.sessionId with
  | none => .error (.raised (.lookupError "KeyError"))
  | some row => do
      require (holdsClaim row claim now) (.historicalResearchConflict
        "stale Historical stage claim")
      require ((∀ other ∈ j.sessions, ∀ stored ∈ other.receipts,
            stored.receiptId ≠ receipt.receiptId ∧ stored.receiptHash ≠ receipt.receiptHash)
          ∧ (∀ other ∈ taken, other.1 ≠ receipt.receiptId ∧ other.2 ≠ receipt.receiptHash)
          ∧ ∀ stored ∈ row.receipts, stored.stageOrdinal ≠ receipt.stage.ordinal) .uniqueViolation
      return finishRun (j.updateSession claim.sessionId fun row =>
        recordedRow row claim.claimId receipt)

end MarketRegimeAlpha.Historical
