/-
The schedule of the capture windows of a prospective archive.

# Rows and windows

A window is a row whose end is after its start, so the windows are the rows
again (`map_asRow`) and everything is read off nine rows. The windows of the
reference checkpoint lie apart whatever the two instants are, since the
reference is at most the close. Those of the outcome checkpoint do where the
outcome is after the open, so that its path is a window at all, and where the
later session closes ten minutes after the outcome session or more: accepted
sessions need neither.
-/
import MarketRegimeAlpha.Market.ProspectiveArchive

namespace MarketRegimeAlpha.Market

open Lib

-- ==== the sessions

structure Resolves (zones : Zones) (decisionSessionId : Nat)
    (sessions : List ProspectiveArchiveSession)
    (checkpoints : List TargetArchiveCheckpoint) (laterOffset : Int)
    (resolved : TargetArchiveSessions) : Prop where
  outcomeCheckpoint : onlyCheckpoint checkpoints .outcomeObservation
    = some resolved.outcomeCheckpoint
  outcome : sessionAfter sessions decisionSessionId
    resolved.outcomeCheckpoint.sessionOffset = some resolved.outcome
  later : sessionAfter sessions decisionSessionId laterOffset.toNat
    = some resolved.laterVerification
  outcomeAt : resolved.outcomeAt
    = checkpointInstant zones resolved.outcome resolved.outcomeCheckpoint
  referenceBefore : resolved.referenceAt ≤ resolved.decision.closeAt
  outcomeAfter : resolved.outcome.openAt ≤ resolved.outcomeAt
  outcomeBefore : resolved.outcomeAt ≤ resolved.outcome.closeAt

theorem found_ok {α : Type} {message : String} {value : Option α} {a : α} :
    found message value = .ok a ↔ value = some a := by
  cases value with
  | none => simp [found]
  | some b => simp [found]

variable {zones : Zones}

theorem checkpointAt_ok {session : ProspectiveArchiveSession} {checkpoint : TargetArchiveCheckpoint}
    {instant : Int} (h : checkpointAt zones session checkpoint = .ok instant) :
    instant = checkpointInstant zones session checkpoint
      ∧ session.openAt ≤ instant ∧ instant ≤ session.closeAt := by
  simp only [checkpointAt, bind_ok, require_ok, pure_ok] at h
  obtain ⟨_, hwithin, rfl⟩ := h
  exact ⟨rfl, hwithin⟩

theorem resolves_of_derive {exchange : String}
    {decisionSessionId : Nat} {sessions : List ProspectiveArchiveSession}
    {checkpoints : List TargetArchiveCheckpoint} {laterOffset : Int}
    {resolved : TargetArchiveSessions}
    (h : deriveTargetArchiveSessions zones exchange decisionSessionId sessions
      checkpoints laterOffset = .ok resolved) :
    Resolves zones decisionSessionId sessions checkpoints laterOffset resolved := by
  simp only [deriveTargetArchiveSessions, bind_ok, require_ok, pure_ok, found_ok] at h
  obtain ⟨_, -, _, -, decision, -, ⟨reference, checkpoint⟩, hboth, _, -, _, -, later,
    hlater, outcome, houtcome, referenceAt, hreference, outcomeAt, hinstant, rfl⟩ := h
  obtain ⟨reference', -, hmap⟩ := Option.bind_eq_some_iff.mp hboth
  obtain ⟨checkpoint', hcheckpoint, heq⟩ := Option.map_eq_some_iff.mp hmap
  obtain ⟨-, rfl⟩ := Prod.mk.inj heq
  have hinstant := checkpointAt_ok hinstant
  exact {
    outcomeCheckpoint := hcheckpoint
    outcome := houtcome
    later := hlater
    outcomeAt := hinstant.1
    referenceBefore := (checkpointAt_ok hreference).2.2
    outcomeAfter := hinstant.2.1
    outcomeBefore := hinstant.2.2 }

-- ==== the windows

def TargetAlignedCaptureWindow.asRow (window : TargetAlignedCaptureWindow) : WindowRow where
  slot := window.slot
  sessionId := window.sessionId
  checkpointId := window.targetCheckpointId
  start := window.windowStart
  stop := window.windowEnd
  comparisonOrdinal := window.comparisonOrdinal

def ProspectiveArchiveScheduleSlot.role : ProspectiveArchiveScheduleSlot → CheckpointRole
  | .preDecision | .decisionNear | .postClose | .eveningRevision => .decisionReference
  | .outcomePreOpen | .outcomePath | .outcome1030 | .outcomePostClose
  | .revisionVerification => .outcomeObservation

def TargetArchiveSessions.checkpointId (resolved : TargetArchiveSessions) : CheckpointRole → Nat
  | .decisionReference => resolved.referenceCheckpoint.targetCheckpointId
  | .outcomeObservation => resolved.outcomeCheckpoint.targetCheckpointId

/-- The windows of each checkpoint, in the order of their ordinals, each end
before the next starts; the reference and the outcome are not captured early. -/
structure Scheduled (resolved : TargetArchiveSessions) (rows : List WindowRow) : Prop where
  slots : rows.map (·.slot) = [.preDecision, .decisionNear, .postClose,
    .eveningRevision, .outcomePreOpen, .outcomePath, .outcome1030,
    .outcomePostClose, .revisionVerification]
  checkpoints : ∀ row ∈ rows, row.checkpointId = resolved.checkpointId row.slot.role
  nonempty : ∀ row ∈ rows, row.start < row.stop
  apart : ∀ role, (rows.filter (·.slot.role = role)).Pairwise fun row next =>
    row.comparisonOrdinal < next.comparisonOrdinal ∧ row.stop ≤ next.start
  near : ∀ row ∈ rows, row.slot = .decisionNear → resolved.referenceAt ≤ row.start
  labels : ∀ row ∈ rows, row.slot.role = .outcomeObservation →
    3 ≤ row.comparisonOrdinal → resolved.outcomeAt ≤ row.start

section Windows

variable {resolved : TargetArchiveSessions}

theorem captureWindow_ok {row : WindowRow} {window : TargetAlignedCaptureWindow}
    (h : captureWindow row = .ok window) : window.asRow = row := by
  unfold captureWindow at h
  split at h
  next =>
    rw [← Except.ok.inj h]
    rfl
  next => cases h

theorem map_asRow {windows : List TargetAlignedCaptureWindow}
    (h : targetAlignedCaptureWindows resolved = .ok windows) :
    windows.map (·.asRow) = windowRows resolved := by
  rw [map_mapM_ok (k := id) (fun _ _ h => captureWindow_ok h) h, List.map_id]

theorem exists_windows (h : ∀ row ∈ windowRows resolved, row.start < row.stop) :
    ∃ windows, targetAlignedCaptureWindows resolved = .ok windows := by
  obtain ⟨windows, hwindows, -⟩ := mapM_ok_length (f := captureWindow)
    fun row hrow => ⟨_, dif_pos (h row hrow)⟩
  exact ⟨windows, hwindows⟩

/-- An outcome after the open, and a later session that closes ten minutes
later or more, leave the windows non-empty and apart. -/
theorem scheduled_windowRows {zones : Zones} {decisionSessionId : Nat}
    {sessions : List ProspectiveArchiveSession} {checkpoints : List TargetArchiveCheckpoint}
    {laterOffset : Int}
    (hresolves : Resolves zones decisionSessionId sessions checkpoints laterOffset resolved)
    (hopen : resolved.outcome.openAt < resolved.outcomeAt)
    (hlater : resolved.outcome.closeAt + minutes 10 ≤ resolved.laterVerification.closeAt) :
    Scheduled resolved (windowRows resolved) := by
  have hreference := hresolves.referenceBefore
  have hbefore := hresolves.outcomeBefore
  unfold minutes at hlater
  constructor
  case slots => rfl
  case checkpoints =>
    simp [windowRows, TargetArchiveSessions.checkpointId, ProspectiveArchiveScheduleSlot.role]
  case nonempty =>
    simp only [windowRows, minutes, List.forall_mem_cons]
    refine ⟨?_, ?_, ?_, ?_, ?_, ?_, ?_, ?_, ?_, List.forall_mem_nil _⟩ <;> omega
  case apart =>
    intro role
    cases role with
    | decisionReference =>
      simp [windowRows, ProspectiveArchiveScheduleSlot.role, minutes]
      omega
    | outcomeObservation =>
      simp [windowRows, ProspectiveArchiveScheduleSlot.role, minutes]
      omega
  case near => simp [windowRows, minutes]
  case labels =>
    simp [windowRows, ProspectiveArchiveScheduleSlot.role, minutes]
    omega

theorem apart_of_scheduled (h : Scheduled resolved (windowRows resolved)) :
    resolved.outcome.openAt < resolved.outcomeAt ∧ resolved.outcome.closeAt + minutes 10
        ≤ resolved.laterVerification.closeAt := by
  constructor
  case left =>
    -- the path of the outcome starts at the open and ends at the outcome
    exact h.nonempty ⟨.outcomePath, resolved.outcome.sessionId,
      resolved.outcomeCheckpoint.targetCheckpointId, resolved.outcome.openAt,
      resolved.outcomeAt, 2⟩ (by simp [windowRows])
  case right =>
    have hpairs := h.apart .outcomeObservation
    simp [windowRows, ProspectiveArchiveScheduleSlot.role, minutes] at hpairs
    unfold minutes
    omega

end Windows

-- ==== the schedule

/-- The outcome checkpoint of the session it falls in is after the open, and the
later session closes ten minutes after that session or more. -/
def OutcomeApart (zones : Zones) (decisionSessionId : Nat)
    (sessions : List ProspectiveArchiveSession)
    (checkpoints : List TargetArchiveCheckpoint) (laterOffset : Int) : Prop :=
  ∀ checkpoint outcome later, onlyCheckpoint checkpoints .outcomeObservation = some checkpoint →
    sessionAfter sessions decisionSessionId checkpoint.sessionOffset = some outcome →
    sessionAfter sessions decisionSessionId laterOffset.toNat = some later →
    outcome.openAt < checkpointInstant zones outcome checkpoint
      ∧ outcome.closeAt + minutes 10 ≤ later.closeAt

section Schedule

variable {zones : Zones} {exchange : String} {decisionSessionId : Nat}
  {sessions : List ProspectiveArchiveSession} {checkpoints : List TargetArchiveCheckpoint}
  {laterOffset : Int} {resolved : TargetArchiveSessions}

theorem Resolves.outcomeApart_iff
    (h : Resolves zones decisionSessionId sessions checkpoints laterOffset resolved) :
    OutcomeApart zones decisionSessionId sessions checkpoints laterOffset
      ↔ resolved.outcome.openAt < resolved.outcomeAt
        ∧ resolved.outcome.closeAt + minutes 10 ≤ resolved.laterVerification.closeAt := by
  rw [h.outcomeAt]
  constructor
  case mp =>
    intro hapart
    exact hapart _ _ _ h.outcomeCheckpoint h.outcome h.later
  case mpr =>
    intro hapart checkpoint outcome later hcheckpoint houtcome hlater
    rw [h.outcomeCheckpoint] at hcheckpoint
    obtain rfl := Option.some.inj hcheckpoint
    rw [h.outcome] at houtcome
    obtain rfl := Option.some.inj houtcome
    rw [h.later] at hlater
    obtain rfl := Option.some.inj hlater
    exact hapart

/-- Accepted sessions and checkpoints have their windows, non-empty, apart and
never early, exactly when the outcome lies apart. -/
theorem capture_schedule_iff
    (haccepted : deriveTargetArchiveSessions zones exchange decisionSessionId
      sessions checkpoints laterOffset = .ok resolved) :
    (∃ windows, targetAlignedCaptureWindows resolved = .ok windows
        ∧ Scheduled resolved (windows.map (·.asRow)))
      ↔ OutcomeApart zones decisionSessionId sessions checkpoints laterOffset := by
  have hresolves := resolves_of_derive haccepted
  rw [hresolves.outcomeApart_iff]
  constructor
  case mp =>
    intro h
    obtain ⟨windows, hwindows, hscheduled⟩ := h
    rw [map_asRow hwindows] at hscheduled
    exact apart_of_scheduled hscheduled
  case mpr =>
    intro h
    have hscheduled := scheduled_windowRows hresolves h.1 h.2
    obtain ⟨windows, hwindows⟩ := exists_windows hscheduled.nonempty
    exact ⟨windows, hwindows, by rwa [map_asRow hwindows]⟩

end Schedule

-- ==== a roster

def sampleZones : Zones := fun _ date time => date * minutes 1440 + time

def sampleSession (day : Nat) : ProspectiveArchiveSession where
  sessionId := day
  exchange := "SSE"
  sessionDate := day
  openAt := day * minutes 1440 + minutes 570
  closeAt := day * minutes 1440 + minutes 900
  named := by decide
  opened := by
    unfold minutes
    omega

def sampleReference : TargetArchiveCheckpoint where
  targetCheckpointId := 1
  ordinal := 1
  checkpointRole := .decisionReference
  sessionOffset := 0
  localTime := minutes 895
  timezoneName := "UTC"
  positive := by decide

def sampleOutcome (minute : Int) : TargetArchiveCheckpoint where
  targetCheckpointId := 2
  ordinal := 2
  checkpointRole := .outcomeObservation
  sessionOffset := 1
  localTime := minutes minute
  timezoneName := "UTC"
  positive := Nat.zero_lt_two

def sampleResolved (minute : Int) : TargetArchiveSessions where
  decision := sampleSession 0
  outcome := sampleSession 1
  laterVerification := sampleSession 2
  referenceCheckpoint := sampleReference
  outcomeCheckpoint := sampleOutcome minute
  referenceAt := minutes 895
  outcomeAt := minutes 1440 + minutes minute

/-- Dates go up and every session closes before the next ones open. -/
def Chronological (sessions : List ProspectiveArchiveSession) : Prop :=
  sessions.Pairwise fun session next =>
    session.sessionDate < next.sessionDate ∧ session.closeAt < next.openAt

def sampleSessions : List ProspectiveArchiveSession :=
  [sampleSession 0, sampleSession 1, sampleSession 2]

theorem sampleSessions_chronological : Chronological sampleSessions := by
  simp [Chronological, sampleSessions, sampleSession, minutes]

theorem sample_opening : deriveTargetArchiveSessions sampleZones "SSE" 0 sampleSessions
      [sampleReference, sampleOutcome 570] 2 = .ok (sampleResolved 570) := by
  rfl

theorem sample_halfPastTen : deriveTargetArchiveSessions sampleZones "SSE" 0 sampleSessions
      [sampleReference, sampleOutcome 630] 2 = .ok (sampleResolved 630) := by
  rfl

/-- An outcome at half past ten is scheduled. -/
theorem capture_schedule_halfPastTen :
    ∃ windows, targetAlignedCaptureWindows (sampleResolved 630) = .ok windows
      ∧ Scheduled (sampleResolved 630) (windows.map (·.asRow)) := by
  apply (capture_schedule_iff sample_halfPastTen).mpr
  rw [(resolves_of_derive sample_halfPastTen).outcomeApart_iff]
  simp [sampleResolved, sampleSession, minutes]

/-- An outcome at the open of its session is accepted and has no path to
capture: the windows of the sessions are refused. -/
theorem outcome_at_open_has_no_windows : Chronological sampleSessions
      ∧ deriveTargetArchiveSessions sampleZones "SSE" 0 sampleSessions
          [sampleReference, sampleOutcome 570] 2 = .ok (sampleResolved 570)
      ∧ targetAlignedCaptureWindows (sampleResolved 570)
        = .error (.valueError "Target-aligned capture window is invalid") :=
  ⟨sampleSessions_chronological, sample_opening, rfl⟩

end MarketRegimeAlpha.Market
