/-
The sessions of a Target-aligned prospective archive and the capture windows
derived from them.

# Time

An instant is its number of microseconds and a date the number of its day. The
time zones are a parameter: `zones name date time` is the instant at which
clocks of the zone show that time on that date, for the names that
`TargetArchiveCheckpoint` accepts. Instants are compared in UTC.

# Sessions

A session carries what its constructor checks. The identifiers are numbers.
-/
import MarketRegimeAlpha.Lib.Checked
import MarketRegimeAlpha.Lib.OrderStat

namespace MarketRegimeAlpha.Market

open Lib

/-- `timedelta(minutes=n)`. -/
def minutes (n : Int) : Int := n * 60000000

abbrev Zones := String → Int → Int → Int

-- ==== the contracts

inductive ProspectiveArchiveScheduleSlot where
  | preDecision
  | decisionNear
  | postClose
  | eveningRevision
  | outcomePreOpen
  | outcomePath
  | outcome1030
  | outcomePostClose
  | revisionVerification
  deriving DecidableEq

inductive CheckpointRole where
  | decisionReference
  | outcomeObservation
  deriving DecidableEq

structure ProspectiveArchiveSession where
  sessionId : Nat
  exchange : String
  (sessionDate openAt closeAt : Int)
  named : exchange ≠ ""
  opened : openAt < closeAt

structure TargetArchiveCheckpoint where
  (targetCheckpointId ordinal : Nat)
  checkpointRole : CheckpointRole
  sessionOffset : Nat
  localTime : Int
  timezoneName : String
  positive : 1 ≤ ordinal

structure TargetArchiveSessions where
  (decision outcome laterVerification : ProspectiveArchiveSession)
  (referenceCheckpoint outcomeCheckpoint : TargetArchiveCheckpoint)
  (referenceAt outcomeAt : Int)

structure TargetAlignedCaptureWindow where
  slot : ProspectiveArchiveScheduleSlot
  (sessionId targetCheckpointId : Nat)
  (windowStart windowEnd : Int)
  comparisonOrdinal : Nat
  valid : windowStart < windowEnd

-- ==== the sessions

variable (zones : Zones)

/-- `datetime.combine(session_date, local_time, tzinfo=ZoneInfo(..))`. -/
def checkpointInstant (session : ProspectiveArchiveSession)
    (checkpoint : TargetArchiveCheckpoint) : Int :=
  zones checkpoint.timezoneName session.sessionDate checkpoint.localTime

def checkpointAt (session : ProspectiveArchiveSession)
    (checkpoint : TargetArchiveCheckpoint) : Except Raised Int := do
  let instant := checkpointInstant zones session checkpoint
  Lib.require (session.openAt ≤ instant ∧ instant ≤ session.closeAt)
    (.valueError "Target checkpoint lies outside its authoritative Session")
  return instant

def onlyCheckpoint (checkpoints : List TargetArchiveCheckpoint)
    (role : CheckpointRole) : Option TargetArchiveCheckpoint :=
  match checkpoints.filter (·.checkpointRole = role) with
  | [checkpoint] => some checkpoint
  | _ => none

def sessionAfter (sessions : List ProspectiveArchiveSession)
    (decisionSessionId : Nat) (offset : Nat) : Option ProspectiveArchiveSession :=
  (sessions.findIdx? (·.sessionId = decisionSessionId)).bind fun index => sessions[index + offset]?

/-- An entry that is there, or the error of its absence. -/
def found {α : Type _} (message : String) : Option α → Except Raised α
  | some value => .ok value
  | none => .error (.valueError message)

def deriveTargetArchiveSessions (exchange : String) (decisionSessionId : Nat)
    (sessions : List ProspectiveArchiveSession) (checkpoints : List TargetArchiveCheckpoint)
    (laterVerificationSessionOffset : Int) :
    Except Raised TargetArchiveSessions := do
  Lib.require (sessions ≠ [] ∧ ∀ item ∈ sessions, item.exchange = exchange)
    (.valueError "prospective archive session exchange is inconsistent")
  Lib.require (sessions.map (·.sessionDate)
        = sortBy id (sessions.map (·.sessionDate))
      ∧ (sessions.map (·.sessionId)).Nodup)
    (.valueError "prospective archive session roster is ambiguous")
  let decision ← found "decision Session is absent from authoritative calendar"
    (sessionAfter sessions decisionSessionId 0)
  let both ← found
    "Target requires exactly one reference and one archive outcome checkpoint"
    ((onlyCheckpoint checkpoints .decisionReference).bind fun reference =>
      (onlyCheckpoint checkpoints .outcomeObservation).map fun outcome => (reference, outcome))
  Lib.require (both.1.sessionOffset = 0 ∧ 1 ≤ both.2.sessionOffset)
    (.valueError "Target archive checkpoint offsets are invalid")
  Lib.require ((both.2.sessionOffset : Int) < laterVerificationSessionOffset)
    (.valueError "later verification must follow the Target outcome Session")
  let later ← found "complete authoritative session roster is required"
    (sessionAfter sessions decisionSessionId laterVerificationSessionOffset.toNat)
  let outcome ← found "complete authoritative session roster is required"
    (sessionAfter sessions decisionSessionId both.2.sessionOffset)
  let referenceAt ← checkpointAt zones decision both.1
  let outcomeAt ← checkpointAt zones outcome both.2
  return {
    decision, outcome
    laterVerification := later
    referenceCheckpoint := both.1
    outcomeCheckpoint := both.2
    referenceAt, outcomeAt }

-- ==== the windows

structure WindowRow where
  slot : ProspectiveArchiveScheduleSlot
  (sessionId checkpointId : Nat)
  (start stop : Int)
  comparisonOrdinal : Nat

variable (resolved : TargetArchiveSessions)

def windowRows : List WindowRow :=
  let referenceAt := resolved.referenceAt
  let outcomeAt := resolved.outcomeAt
  let decisionClose := resolved.decision.closeAt
  let outcomeOpen := resolved.outcome.openAt
  let outcomeClose := resolved.outcome.closeAt
  let laterClose := resolved.laterVerification.closeAt
  let decisionId := resolved.decision.sessionId
  let outcomeId := resolved.outcome.sessionId
  let reference := resolved.referenceCheckpoint.targetCheckpointId
  let outcome := resolved.outcomeCheckpoint.targetCheckpointId
  [⟨.preDecision, decisionId, reference,
      referenceAt - minutes 15, referenceAt - minutes 7, 1⟩,
    ⟨.decisionNear, decisionId, reference,
      referenceAt, referenceAt + minutes 1, 2⟩,
    ⟨.postClose, decisionId, reference,
      decisionClose + minutes 25, decisionClose + minutes 35, 3⟩,
    ⟨.eveningRevision, decisionId, reference,
      decisionClose + minutes 295, decisionClose + minutes 305, 4⟩,
    ⟨.outcomePreOpen, outcomeId, outcome,
      outcomeOpen - minutes 35, outcomeOpen - minutes 25, 1⟩,
    ⟨.outcomePath, outcomeId, outcome, outcomeOpen, outcomeAt, 2⟩,
    ⟨.outcome1030, outcomeId, outcome, outcomeAt, outcomeAt + minutes 1, 3⟩,
    ⟨.outcomePostClose, outcomeId, outcome,
      outcomeClose + minutes 25, outcomeClose + minutes 35, 4⟩,
    ⟨.revisionVerification, resolved.laterVerification.sessionId, outcome,
      laterClose + minutes 25, laterClose + minutes 35, 5⟩]

/-- `TargetAlignedCaptureWindow(..)`. -/
def captureWindow (row : WindowRow) : Except Raised TargetAlignedCaptureWindow :=
  if h : row.start < row.stop then
    .ok ⟨row.slot, row.sessionId, row.checkpointId, row.start, row.stop,
      row.comparisonOrdinal, h⟩
  else .error (.valueError "Target-aligned capture window is invalid")

def targetAlignedCaptureWindows : Except Raised (List TargetAlignedCaptureWindow) :=
  (windowRows resolved).mapM captureWindow

end MarketRegimeAlpha.Market
