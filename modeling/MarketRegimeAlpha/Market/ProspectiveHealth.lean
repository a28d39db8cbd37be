/-
The operational counts of a prospective archive: how many of the expected
windows are open, done and captured.

# Additivity

The loop only adds to the counters, and what it adds for a slice does not
depend on the counters (`Tally.count_ok`). So they are the sum of what the
slices contribute (`Tally.foldlM_ok`), in every order, and an equation
between counters holds when each contribution meets it.
-/
import Mathlib.Algebra.BigOperators.Group.List.Basic
import MarketRegimeAlpha.Lib.Quantize
import MarketRegimeAlpha.Market.ProspectiveArchive

namespace MarketRegimeAlpha.Market

open Lib List

inductive ProspectiveArchiveTerminalState where
  | capturedOnTime
  | capturedLate
  | missed
  | providerGap
  | resourceStop
  | failed
  deriving DecidableEq

inductive ProspectiveArchiveDueState where
  | notDue
  | due
  | overdue
  deriving DecidableEq

/-- `ProspectiveArchiveDueState.at`, of a window that is not reversed. -/
def ProspectiveArchiveDueState.at (now windowStart windowEnd : Int) : ProspectiveArchiveDueState :=
  if now < windowStart then .notDue else if now ≤ windowEnd then .due else .overdue

structure ProspectiveHealthSlice where
  marketArchiveSliceId : Nat
  (windowStart windowEnd : Int)
  terminalState : Option ProspectiveArchiveTerminalState
  observationCount : Nat
  latestKnownAt : Option Int
  (latestAttemptState latestAttemptErrorCode : Option String)
  latestAttemptLeaseUntil : Option Int
  runtimeState : Option String
  not_reversed : windowStart ≤ windowEnd

-- ==== the counters

/-- A key of `counts`. -/
inductive Counter where
  | state (value : ProspectiveArchiveTerminalState)
  | expected
  | openedExpected
  | future
  | dueBacklog
  | overdueUnterminalized
  | successfulCapture
  | terminal
  | unknownExternalEffect
  | expiredActiveLease
  | runtimeFailure
  | observations
  | planningGaps
  deriving DecidableEq

abbrev Counts := Counter → Nat

/-- `counts[key] += n`, if the condition holds. -/
def Counts.add (counts : Counts) (condition : Bool) (key : Counter) (n : Nat) : Counts :=
  fun other => if condition ∧ other = key then counts other + n else counts other

namespace ProspectiveHealthSlice

variable (item : ProspectiveHealthSlice) (now : Int)

def due : ProspectiveArchiveDueState := .at now item.windowStart item.windowEnd

/-- What the loop adds for one slice. -/
def add (counts : Counts) : Counts :=
  let closed := item.terminalState
  let opened := item.due now ≠ .notDue
  let counts := counts.add (item.due now = .notDue) .future 1
  let counts := counts.add opened .openedExpected 1
  let counts := counts.add (closed = none ∧ item.due now = .due) .dueBacklog 1
  let counts := counts.add (closed = none ∧ item.due now = .overdue) .overdueUnterminalized 1
  let counts := match closed with
    | none => counts
    | some state => (counts.add true (.state state) 1).add true .terminal 1
  let counts := counts.add (closed = some .capturedOnTime ∨ closed = some .capturedLate)
    .successfulCapture 1
  let counts := counts.add
    (item.latestAttemptErrorCode ∈ [some "EXTERNAL_EFFECT_UNKNOWN", some "RECONCILIATION_REQUIRED"]
      ∨ item.runtimeState = some "RECONCILIATION_REQUIRED"
      ∨ item.latestAttemptState = some "RECONCILIATION_REQUIRED") .unknownExternalEffect 1
  let counts := counts.add (item.latestAttemptState ∈ [some "CLAIMED", some "RUNNING"]
    ∧ item.latestAttemptLeaseUntil.any (· ≤ now)) .expiredActiveLease 1
  let counts := counts.add (item.runtimeState ∈ [some "FAILED", some "FAILED_TERMINAL"]
    ∨ item.latestAttemptState ∈ [some "FAILED", some "FAILED_TERMINAL"]) .runtimeFailure 1
  counts.add true .observations item.observationCount

end ProspectiveHealthSlice

/-- `counts` and `known_times`. -/
structure Tally where
  counts : Counts
  knownTimes : List Int

/-- One slice of the loop. -/
def Tally.count (now : Int) (tally : Tally) (item : ProspectiveHealthSlice) :
    Except Raised Tally := do
  Lib.require (¬ (item.due now = .notDue ∧ (item.terminalState ≠ none ∨ item.observationCount ≠ 0)))
    (.valueError "future expected window already has an observed terminal effect")
  Lib.require (∀ known ∈ item.latestKnownAt, known ≤ now)
    (.valueError "health known-time exceeds PostgreSQL observation time")
  return ⟨item.add now tally.counts, tally.knownTimes ++ item.latestKnownAt.toList⟩

-- ==== the projection

structure HealthRate where
  (numerator denominator : Nat)
  state : String
  value : Option ℚ
  reasonCode : Option String

/-- `_rate`. -/
def rate (numerator denominator : Nat) : Except Raised HealthRate := do
  Lib.require (numerator ≤ denominator)
    (.valueError "health numerator exceeds opened expected windows")
  return {
    numerator := numerator
    denominator := denominator
    state := if denominator ≠ 0 then "ESTIMABLE" else "NOT_ESTIMABLE"
    value := if denominator ≠ 0 then
        some (quantize halfEven (1 / 10 ^ 12) (roundSignificant 38 (numerator / denominator)))
      else none
    reasonCode := if denominator ≠ 0 then none else some "NO_OPENED_EXPECTED_WINDOWS" }

structure HealthAlert where
  (reasonCode severity : String)
  count : Nat

def alertKeys : List (Counter × String × String) :=
  [(.dueBacklog, "DUE_WORK_AVAILABLE", "INFO"),
    (.overdueUnterminalized, "OVERDUE_UNTERMINALIZED", "ERROR"),
    (.unknownExternalEffect, "UNKNOWN_EXTERNAL_EFFECT", "ERROR"),
    (.expiredActiveLease, "LEASE_RECOVERY_REQUIRED", "ERROR"),
    (.runtimeFailure, "RUNTIME_FAILURE", "ERROR"),
    (.state .providerGap, "PROVIDER_GAPS", "WARNING"),
    (.state .resourceStop, "RESOURCE_STOP", "ERROR"),
    (.state .failed, "CAPTURE_FAILURES", "ERROR"), (.state .missed, "MISSED_WINDOWS", "WARNING"),
    (.state .capturedLate, "LATE_CAPTURES", "WARNING"), (.planningGaps, "PLANNING_GAPS", "WARNING")]

structure ProspectiveHealth where
  counts : Counts
  (captureSuccess onTimeCapture terminalCoverage : HealthRate)
  alerts : List HealthAlert
  operationalState : String
  latestKnownAt : Option Int
  /-- `age_seconds`, in microseconds. -/
  age : Option Int

def initialCounts (slices : List ProspectiveHealthSlice) (planningGapCount : Int) : Counts
  | .expected => slices.length
  | .planningGaps => planningGapCount.toNat
  | _ => 0

def tallyHealth (now : Int) (slices : List ProspectiveHealthSlice) (planningGapCount : Int) :
    Except Raised Tally := do
  Lib.require (slices.map (·.marketArchiveSliceId)).Nodup
    (.valueError "health roster contains a duplicate slice")
  Lib.require (0 ≤ planningGapCount) (.valueError "health planning_gap_count is invalid")
  slices.foldlM (Tally.count now) ⟨initialCounts slices planningGapCount, []⟩

def projectProspectiveHealth (now : Int) (slices : List ProspectiveHealthSlice)
    (planningGapCount : Int) : Except Raised ProspectiveHealth := do
  let tally ← tallyHealth now slices planningGapCount
  let counts := tally.counts
  let alerts := (alertKeys.filter (counts ·.1 ≠ 0)).map fun key =>
    ⟨key.2.1, key.2.2, counts key.1⟩
  let lastKnown := tally.knownTimes.max?
  return {
    counts := counts
    captureSuccess := ← rate (counts .successfulCapture) (counts .openedExpected)
    onTimeCapture := ← rate (counts (.state .capturedOnTime)) (counts .openedExpected)
    terminalCoverage := ← rate (counts .terminal) (counts .openedExpected)
    alerts := alerts
    operationalState :=
      if alerts ≠ [] then "ATTENTION_REQUIRED"
      else if counts .future = counts .expected then "NOT_DUE" else "NO_OPEN_BACKLOG"
    latestKnownAt := lastKnown
    age := lastKnown.map (now - ·) }

-- ==== what a slice contributes

variable {now : Int} {item : ProspectiveHealthSlice} {tally tally' : Tally}
  {slices : List ProspectiveHealthSlice} {planningGapCount : Int}

/-- With its part of `len(slices)`. -/
def ProspectiveHealthSlice.contribution (item : ProspectiveHealthSlice) (now : Int) : Counts :=
  item.add now (Counts.add 0 true .expected 1)

variable (counts counts' : Counts)

theorem Counts.add_add (condition : Bool) (key : Counter) (n : Nat) :
    (counts + counts').add condition key n = counts + counts'.add condition key n := by
  funext other
  by_cases h : condition ∧ other = key
  · simp [Counts.add, h, add_assoc]
  · simp [Counts.add, h]

theorem ProspectiveHealthSlice.add_add :
    item.add now (counts + counts') = counts + item.add now counts' := by
  unfold add
  cases item.terminalState with
  | none => simp only [Counts.add_add]
  | some state => simp only [Counts.add_add]

/-- The equations between the counters. -/
structure Conserved (counts : Counts) : Prop where
  expected : counts .expected = counts .future + counts .openedExpected
  opened : counts .openedExpected
    = counts .dueBacklog + counts .overdueUnterminalized + counts .terminal
  terminal : counts .terminal = counts (.state .capturedOnTime) + counts (.state .capturedLate)
    + counts (.state .missed) + counts (.state .providerGap) + counts (.state .resourceStop)
    + counts (.state .failed)
  captured : counts .successfulCapture ≤ counts .terminal

theorem Conserved.add {counts counts' : Counts} (h : Conserved counts) (h' : Conserved counts') :
    Conserved (counts + counts') := by
  constructor
  case expected => simp only [Pi.add_apply, h.expected, h'.expected]; omega
  case opened => simp only [Pi.add_apply, h.opened, h'.opened]; omega
  case terminal => simp only [Pi.add_apply, h.terminal, h'.terminal]; omega
  case captured => exact Nat.add_le_add h.captured h'.captured

/-- What the loop asks of a slice. -/
structure ProspectiveHealthSlice.Admitted (item : ProspectiveHealthSlice) (now : Int) : Prop where
  future : item.due now = .notDue → item.terminalState = none ∧ item.observationCount = 0
  known : ∀ known ∈ item.latestKnownAt, known ≤ now

theorem ProspectiveHealthSlice.Admitted.conserved (h : item.Admitted now) :
    Conserved (item.contribution now) := by
  have hfuture := h.future
  unfold contribution add
  cases hdue : item.due now <;> cases hstate : item.terminalState with
  | none => constructor <;> simp [Counts.add]
  | some state =>
    cases state <;> constructor <;> simp_all [Counts.add]

theorem Tally.count_ok : tally.count now item = .ok tally' ↔ item.Admitted now
    ∧ tally' = ⟨item.add now tally.counts, tally.knownTimes ++ item.latestKnownAt.toList⟩ := by
  unfold count
  simp only [bind_ok, require_ok, pure_ok]
  constructor
  · rintro ⟨_, hfuture, _, hknown, rfl⟩
    exact ⟨⟨fun hdue => by simpa [hdue] using hfuture, hknown⟩, rfl⟩
  · rintro ⟨h, rfl⟩
    refine ⟨(), fun hfuture => ?_, (), h.known, rfl⟩
    have := h.future hfuture.1
    simp [this] at hfuture

theorem Tally.foldlM_ok : slices.foldlM (Tally.count now) tally = .ok tally' ↔
    (∀ item ∈ slices, item.Admitted now)
      ∧ tally' = ⟨tally.counts + (slices.map (·.add now 0)).sum,
        tally.knownTimes ++ slices.flatMap (·.latestKnownAt.toList)⟩ := by
  induction slices generalizing tally with
  | nil => simp [pure, Except.pure, eq_comm]
  | cons item slices ih =>
    have hadd : item.add now tally.counts = tally.counts + item.add now 0 := by
      rw [← ProspectiveHealthSlice.add_add, add_zero]
    rw [foldlM_cons, bind_ok]
    simp only [count_ok, ih, forall_mem_cons, map_cons, sum_cons, flatMap_cons]
    constructor
    · rintro ⟨_, ⟨hitem, rfl⟩, hslices, rfl⟩
      refine ⟨⟨hitem, hslices⟩, ?_⟩
      rw [hadd, add_assoc, append_assoc]
    · rintro ⟨⟨hitem, hslices⟩, rfl⟩
      refine ⟨_, ⟨hitem, rfl⟩, hslices, ?_⟩
      rw [hadd, add_assoc, append_assoc]

-- ==== the roster

/-- What is asked of a roster. -/
structure Accepted (now : Int) (slices : List ProspectiveHealthSlice) (planningGapCount : Int) :
    Prop where
  ids_nodup : (slices.map (·.marketArchiveSliceId)).Nodup
  gaps_nonneg : 0 ≤ planningGapCount
  admitted : ∀ item ∈ slices, item.Admitted now

def totals (now : Int) (slices : List ProspectiveHealthSlice) (planningGapCount : Int) : Counts :=
  Counts.add 0 true .planningGaps planningGapCount.toNat
    + (slices.map (·.contribution now)).sum

theorem totals_eq : totals now slices planningGapCount
    = initialCounts slices planningGapCount + (slices.map (·.add now 0)).sum := by
  have hpart : ∀ item ∈ slices, item.contribution now
      = Counts.add 0 true .expected 1 + item.add now 0 := by
    intro item _
    rw [← ProspectiveHealthSlice.add_add, add_zero]
    rfl
  unfold totals
  rw [map_congr_left hpart, sum_map_add, ← add_assoc]
  congr 1
  funext key
  cases key <;> simp [Counts.add, initialCounts]

theorem tallyHealth_ok : tallyHealth now slices planningGapCount = .ok tally ↔
    Accepted now slices planningGapCount ∧ tally
      = ⟨totals now slices planningGapCount, slices.flatMap (·.latestKnownAt.toList)⟩ := by
  unfold tallyHealth
  simp only [bind_ok, require_ok, Tally.foldlM_ok, totals_eq, nil_append]
  constructor
  · rintro ⟨_, hids, _, hgaps, hadmitted, rfl⟩
    exact ⟨⟨hids, hgaps, hadmitted⟩, rfl⟩
  · rintro ⟨h, rfl⟩
    exact ⟨(), h.ids_nodup, (), h.gaps_nonneg, h.admitted, rfl⟩

theorem totals_conserved (h : ∀ item ∈ slices, item.Admitted now) :
    Conserved (totals now slices planningGapCount) := by
  have hsum : Conserved (slices.map (·.contribution now)).sum := by
    induction slices with
    | nil => exact ⟨rfl, rfl, rfl, le_rfl⟩
    | cons item slices ih =>
      rw [forall_mem_cons] at h
      exact h.1.conserved.add (ih h.2)
  refine Conserved.add ⟨rfl, rfl, rfl, le_rfl⟩ hsum

/-- No rate is above one, so the projection returns what the loop has
counted. -/
theorem projectProspectiveHealth_counts {counts : Counts} :
    (∃ report, projectProspectiveHealth now slices planningGapCount = .ok report
        ∧ report.counts = counts) ↔
      Accepted now slices planningGapCount ∧ counts = totals now slices planningGapCount := by
  unfold projectProspectiveHealth
  constructor
  · rintro ⟨report, h, rfl⟩
    simp only [bind_ok, tallyHealth_ok, pure_ok] at h
    obtain ⟨tally, ⟨haccepted, rfl⟩, _, -, _, -, _, -, rfl⟩ := h
    exact ⟨haccepted, rfl⟩
  · rintro ⟨h, rfl⟩
    have hconserved : Conserved (totals now slices planningGapCount) := totals_conserved h.admitted
    have hopened := hconserved.opened
    have hterminal := hconserved.terminal
    have hcaptured := hconserved.captured
    rw [tallyHealth_ok.mpr ⟨h, rfl⟩]
    unfold rate
    simp only [ok_bind]
    rw [require_true (by omega), require_true (by omega), require_true (by omega)]
    exact ⟨_, rfl, rfl⟩

theorem prospective_health_conserved (now : Int) (slices : List ProspectiveHealthSlice)
    (planningGapCount : Int) :
    ((∃ report, projectProspectiveHealth now slices planningGapCount = .ok report) ↔
        Accepted now slices planningGapCount)
      ∧ ∀ report, projectProspectiveHealth now slices planningGapCount = .ok report →
        Conserved report.counts
          ∧ ∀ other otherGaps report', projectProspectiveHealth now other otherGaps = .ok report' →
            (slices.map (·.marketArchiveSliceId)).Disjoint (other.map (·.marketArchiveSliceId)) →
            ∀ union, union.Perm (slices ++ other) → ∃ total,
              projectProspectiveHealth now union (planningGapCount + otherGaps) = .ok total
                ∧ total.counts = report.counts + report'.counts := by
  refine ⟨⟨?_, fun h => ?_⟩, fun report h => ?_⟩
  · rintro ⟨report, h⟩
    exact (projectProspectiveHealth_counts.mp ⟨report, h, rfl⟩).1
  · obtain ⟨report, hreport, -⟩ := projectProspectiveHealth_counts.mpr ⟨h, rfl⟩
    exact ⟨report, hreport⟩
  · obtain ⟨haccepted, hcounts⟩ := projectProspectiveHealth_counts.mp ⟨report, h, rfl⟩
    refine ⟨hcounts ▸ totals_conserved haccepted.admitted, ?_⟩
    intro other otherGaps report' h' hdisjoint union hperm
    obtain ⟨haccepted', hcounts'⟩ := projectProspectiveHealth_counts.mp ⟨report', h', rfl⟩
    refine projectProspectiveHealth_counts.mpr ⟨⟨?_, ?_, ?_⟩, ?_⟩
    · rw [(hperm.map _).nodup_iff, map_append]
      exact haccepted.ids_nodup.append haccepted'.ids_nodup hdisjoint
    · exact add_nonneg haccepted.gaps_nonneg haccepted'.gaps_nonneg
    · intro item hitem
      rcases mem_append.mp (hperm.mem_iff.mp hitem) with hitem | hitem
      · exact haccepted.admitted item hitem
      · exact haccepted'.admitted item hitem
    · have hgaps : Counts.add 0 true .planningGaps (planningGapCount + otherGaps).toNat
          = Counts.add 0 true .planningGaps planningGapCount.toNat
            + Counts.add 0 true .planningGaps otherGaps.toNat := by
        rw [Int.toNat_add haccepted.gaps_nonneg haccepted'.gaps_nonneg]
        funext key
        by_cases hkey : key = .planningGaps <;> simp [Counts.add, hkey]
      rw [hcounts, hcounts', totals, totals, totals, hgaps, (hperm.map _).sum_eq, map_append,
        sum_append, add_add_add_comm]

end MarketRegimeAlpha.Market
