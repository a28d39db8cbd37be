/-
The runner of a Historical Research run: the drain loop, any number of
which race over one journal, and the replay of what they recorded.

# The steps

A `Drain` is the place a `_drain` loop has reached. Each step of it is
one operation on the journal, with the computation that leads up to it:
reading the run, claiming, computing the claimed stage and recording it,
reading the recorded session back. A loop that raises is over, and a loop
may be dropped between any two of its steps (`crash`). The clock never
goes back, and each operation reads it once.

`handed` is a history: the claims that `claim_next` has ever returned.
Nothing reads it.
-/
import MarketRegimeAlpha.Lib.Reach
import MarketRegimeAlpha.Historical.Journal

namespace MarketRegimeAlpha.Historical

open Lib

-- ==== the drain loop

/-- Where a `_drain` loop is. -/
inductive Drain where
  | starting
  | claiming (committed : Nat)
  | holding (committed : Nat) (claim : HistoricalStageClaim)
  | confirming (committed : Nat) (sessionId : String)
  | finishing
  | returned (snapshot : HistoricalRunSnapshot)
  | failed (e : Error)

/-- A worker: how long it leases for, how many stages it may commit, and
where its loop is. -/
structure Worker where
  leaseDuration : Instant
  maxStageCommits : Option Nat
  place : Drain
  lease_positive : 0 < leaseDuration

/-- One run with the workers that drain it. -/
structure System where
  journal : Journal
  now : Instant
  otherReceipts : List (String × Digest)
  workers : List Worker
  handed : List HistoricalStageClaim

section Drain

variable (platform : Platform)

/-- `_drain` up to its loop: the run as it is read decides whether there
is one. -/
def drainStart (j : Journal) : Drain :=
  match getRun platform j with
  | .error e => .failed e
  | .ok snapshot =>
    match snapshot.runtimeContractVersion with
    | .e3 => .claiming 0
    | .preE3 =>
      if snapshot.status = .complete ∨ snapshot.status = .completeWithBlocks then
        .returned snapshot
      else .failed (.historicalResearchConflict
        ("Pre-E3 incomplete runs require their exact historical code "
          ++ "revision; current materialization is intentionally not "
          ++ "substituted"))

variable (command : HistoricalResearchCommand)

/-- The body of the loop between its two operations: the next receipt of
the claimed session. -/
def computeStage (claim : HistoricalStageClaim) : Except Raised ResearchSessionStageReceipt := do
  let request ← command.sessionRequest platform claim.tradingDate
  let computed ← Kernel.runNext platform request claim.completedPrefix
  require (computed.length = claim.completedPrefix.length + 1) (.valueError
    "shared session kernel did not compute one claimed stage")
  match computed.getLast? with
  | some receipt => return receipt
  | none => .error (.lookupError "tuple index out of range")

def commitStage (s : System) (claim : HistoricalStageClaim) :
    Except Error Journal := do
  let receipt ← ofRaised (computeStage platform s.journal.command claim)
  recordStage s.journal s.otherReceipts s.now claim receipt

def mayCommit (worker : Worker) (committed : Nat) : Bool :=
  worker.maxStageCommits.all fun bound => committed < bound

/-- The next operation of a worker, at place `i` of the workers, with the
claim id it draws should it claim. -/
def actWorker (s : System) (i : Nat) (worker : Worker) (claimId : String) :
    System :=
  let move (place : Drain) : List Worker := s.workers.set i { worker with place := place }
  match worker.place with
  | .starting => { s with workers := move (drainStart platform s.journal) }
  | .claiming committed =>
    if mayCommit worker committed then
      match claimNext platform s.journal s.now worker.leaseDuration claimId with
      | .error e => { s with workers := move (.failed e) }
      | .ok (none, j) => { s with journal := j, workers := move .finishing }
      | .ok (some claim, j) => { s with
          journal := j
          workers := move (.holding committed claim)
          handed := claim :: s.handed }
    else { s with workers := move .finishing }
  | .holding committed claim =>
    match commitStage platform s claim with
    | .error e => { s with workers := move (.failed e) }
    | .ok j => { s with
        journal := j
        workers := move (.confirming committed claim.sessionId) }
  | .confirming committed sessionId =>
    match getSession platform s.journal sessionId with
    | .error e => { s with workers := move (.failed e) }
    | .ok _ => { s with workers := move (.claiming (committed + 1)) }
  | .finishing =>
    match getRun platform s.journal with
    | .error e => { s with workers := move (.failed e) }
    | .ok snapshot => { s with workers := move (.returned snapshot) }
  | .returned _ => s
  | .failed _ => s

/-- What happens next: a worker starts a loop, takes its next step or is
never heard of again, time passes, or another run records a receipt. -/
inductive RunEvent where
  | start (worker : Worker)
  | act (i : Nat) (claimId : String)
  | crash (i : Nat)
  | tick (elapsed : Nat)
  | recordedElsewhere (receiptId : String) (receiptHash : Digest)

/-- One event. -/
def System.next : RunEvent → System → System
  | .start worker, s => { s with workers := s.workers ++ [{ worker with place := .starting }] }
  | .act i claimId, s =>
    match s.workers[i]? with
    | none => s
    | some worker => actWorker platform s i worker claimId
  | .crash i, s => { s with workers := s.workers.eraseIdx i }
  | .tick elapsed, s => { s with now := s.now + elapsed }
  | .recordedElsewhere receiptId receiptHash, s => { s with
      otherReceipts := (receiptId, receiptHash) :: s.otherReceipts }

def Created (s : System) : Prop :=
  createOrGet platform command = .ok s.journal ∧ s.workers = [] ∧ s.handed = []

def Reached : System → Prop :=
  Reach (Created platform command) (System.next platform) fun _ _ => True

end Drain

-- ==== the replay

structure HistoricalReplayMismatch where
  tradingDate : Day
  stage : ResearchSessionStage
  (expectedReceiptHash actualReceiptHash : Option Digest)

structure HistoricalReplayReport where
  runId : String
  matched : Bool
  replayedSessionCount : Nat
  mismatches : List HistoricalReplayMismatch
  recomputed : Bool

section Replay

variable (platform : Platform)

/-- The first receipts of the two that differ: `zip(..., strict=False)`
up to its `break`. -/
def firstMismatch (tradingDate : Day) :
    List ResearchSessionStageReceipt → List ResearchSessionStageReceipt →
      Option HistoricalReplayMismatch
  | expected :: rest, actual :: rest' =>
    if expected.receiptHash ≠ actual.receiptHash then
      some {
        tradingDate := tradingDate
        stage := expected.stage
        expectedReceiptHash := some expected.receiptHash
        actualReceiptHash := some actual.receiptHash }
    else firstMismatch tradingDate rest rest'
  | _, _ => none

/-- What the replay of one session adds to the mismatches; a missing
receipt is `none`. -/
def replaySession (session : HistoricalSessionSnapshot) :
    Except Raised (List HistoricalReplayMismatch) := do
  let recomputed ← Kernel.run platform session.request []
  match firstMismatch session.request.tradingDate session.receipts recomputed with
  | some mismatch => return [mismatch]
  | none =>
    if session.receipts.length ≠ recomputed.length then do
      let stage ← stageAt (min session.receipts.length recomputed.length)
      return [{
        tradingDate := session.request.tradingDate
        stage := stage
        expectedReceiptHash := session.receipts[stage.ordinal - 1]?.map (·.receiptHash)
        actualReceiptHash := recomputed[stage.ordinal - 1]?.map (·.receiptHash) }]
    else return []

/-- The mismatches of a run; the sessions of a legacy run are not computed
again. -/
def replaySessions (legacy : Bool) (sessions : List HistoricalSessionSnapshot) :
    Except Error (List (List HistoricalReplayMismatch)) :=
  if legacy then .ok []
  else ofRaised (sessions.mapM (replaySession platform))

def replay (j : Journal) : Except Error HistoricalReplayReport := do
  let snapshot ← getRun platform j
  let legacy : Bool := snapshot.runtimeContractVersion = .preE3
  require (¬ (legacy ∧ snapshot.status ≠ .complete ∧ snapshot.status ≠ .completeWithBlocks))
    (.historicalResearchConflict "Pre-E3 immutable receipt verification requires a terminal run")
  let mismatches ← replaySessions platform legacy snapshot.sessions
  return {
    runId := snapshot.command.runId
    matched := mismatches.flatten = []
    replayedSessionCount := snapshot.sessions.length
    mismatches := mismatches.flatten
    recomputed := ¬ legacy }

end Replay

end MarketRegimeAlpha.Historical
