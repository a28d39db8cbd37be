/-
Which protocols of a formal evaluation keep their partitions apart.

# What the admission guarantees

An observation admitted to a window has its label before the first window of the
next partition of the fold. Windows of a fold do not overlap, so the whole window
is before that one too, and the sessions of the window's embargo lie between
(`embargo_between`). For a validation window nothing comes after that.
-/
import MarketRegimeAlpha.Lib.Windows
import MarketRegimeAlpha.ResearchValidation.FormalEvaluation

namespace MarketRegimeAlpha.ResearchValidation

open Lib List

-- ==== the properties

/-- The label of an observation in a window ends before every window of a later
partition of the fold starts, with the embargo of sessions between. -/
def Purged (protocol : FormalEvaluationProtocol) (frozenTradingDates : List Int)
    (observation : EvaluationObservation) (window : EvaluationWindow) : Prop :=
  ∀ later ∈ protocol.windows, later.fold = window.fold →
    window.partition.order < later.partition.order →
    observation.labelEndDate < later.startDate ∧ (frozenTradingDates ≠ [] → protocol.embargoSessions
        ≤ (frozenTradingDates.filter fun day =>
          observation.sessionDate < day ∧ day < later.startDate).length)

/-- No label of a training window that ends before the validation windows of its
fold, from a session before the embargo, reaches a locked window of the fold. -/
def LabelsClear (protocol : FormalEvaluationProtocol)
    (observations : List EvaluationObservation) (frozenTradingDates : List Int) :
    Prop :=
  ∀ window ∈ protocol.windows, window.partition = .train →
    ∀ observation ∈ observations, window.Contains observation.sessionDate →
    (∀ validation ∈ protocol.windows, validation.fold = window.fold →
      validation.partition = .validation →
      observation.labelEndDate < validation.startDate) →
    observation.sessionDate ∉ embargoDates protocol observations frozenTradingDates window →
    ∀ locked ∈ protocol.windows, locked.fold = window.fold →
      locked.partition = .lockedOos → observation.labelEndDate < locked.startDate

/-- For a training window of more days than the embargo, a validation window of the
fold starts no later than the window or than each locked window. -/
def FoldsForward (protocol : FormalEvaluationProtocol) : Prop :=
  ∀ window ∈ protocol.windows, window.partition = .train →
    window.startDate + protocol.embargoSessions ≤ window.endDate →
    ∀ locked ∈ protocol.windows, locked.fold = window.fold → locked.partition = .lockedOos →
      ∃ validation ∈ protocol.windows, validation.fold = window.fold
        ∧ validation.partition = .validation
        ∧ validation.startDate ≤ max window.startDate locked.startDate

-- ==== what create guarantees

/-- What a protocol that was created has. -/
structure Accepted (protocol : FormalEvaluationProtocol) : Prop where
  partitions : ∀ window ∈ protocol.windows, ∀ partition,
    ∃ other ∈ protocol.windows, other.fold = window.fold ∧ other.partition = partition
  disjoint : ∀ left ∈ protocol.windows, ∀ right ∈ protocol.windows,
    left.fold = right.fold → left ≠ right →
      min left.endDate right.endDate < max left.startDate right.startDate
  embargo : 0 < protocol.embargoSessions

theorem validateFoldWindows_ok {windows : List EvaluationWindow}
    (h : validateFoldWindows windows = .ok ()) :
    ∀ window ∈ windows, (∀ partition ∈ [EvaluationPartition.train, .validation, .lockedOos],
        partition ∈ (windows.filter (·.fold = window.fold)).map (·.partition))
      ∧ ∀ left ∈ windows.filter (·.fold = window.fold),
        ∀ right ∈ windows.filter (·.fold = window.fold),
          ¬ (left.windowId < right.windowId ∧ max left.startDate right.startDate
            ≤ min left.endDate right.endDate) := by
  intro window hwindow
  have hfold : window.fold ∈ (windows.map (·.fold)).dedup :=
    mem_dedup.mpr (mem_map_of_mem hwindow)
  have hchecks := forM_ok.mp h window.fold hfold
  rw [bind_ok] at hchecks
  obtain ⟨_, hpartitions, hoverlaps⟩ := hchecks
  refine ⟨require_ok.mp hpartitions, fun left hleft right hright => ?_⟩
  have hrow := forM_ok.mp hoverlaps left hleft
  exact require_ok.mp (forM_ok.mp hrow right hright)

theorem accepted_of_create {arguments : ProtocolArguments} {protocol : FormalEvaluationProtocol}
    (h : FormalEvaluationProtocol.create arguments = .ok protocol) :
    Accepted protocol := by
  unfold FormalEvaluationProtocol.create at h
  simp only [bind_ok, require_ok, pure_ok] at h
  obtain ⟨_, ⟨-, hids⟩, _, -, _, -, _, -, _, -, _, hfolds, embargo, hembargo, rfl⟩ := h
  have hchecks := validateFoldWindows_ok hfolds
  constructor
  case partitions =>
    intro window hwindow partition
    have hmem := (hchecks window hwindow).1 partition (by cases partition <;> simp)
    obtain ⟨other, hother, rfl⟩ := mem_map.mp hmem
    obtain ⟨hother, hfold⟩ := mem_filter.mp hother
    exact ⟨other, hother, of_decide_eq_true hfold, rfl⟩
  case disjoint =>
    intro left hleft right hright hfold hne
    have hmem : ∀ window ∈ sortBy windowKey arguments.windows, window.fold = left.fold →
        window ∈ (sortBy windowKey arguments.windows).filter (·.fold = left.fold) :=
      fun window hwindow heq => mem_filter.mpr ⟨hwindow, decide_eq_true heq⟩
    have hfree := (hchecks left hleft).2
    have hidne : left.windowId ≠ right.windowId := fun heq =>
      hne (inj_on_of_nodup_map hids hleft hright heq)
    apply lt_of_not_ge
    rcases lt_or_gt_of_ne hidne with hlt | hgt
    · exact fun hover => hfree left (hmem left hleft rfl) right
        (hmem right hright hfold.symm) ⟨hlt, hover⟩
    · intro hover
      rw [max_comm, min_comm] at hover
      exact hfree right (hmem right hright hfold.symm) left (hmem left hleft rfl) ⟨hgt, hover⟩
  case embargo =>
    unfold deriveEmbargoSessions at hembargo
    simp only [bind_ok, pure_ok] at hembargo
    obtain ⟨_, -, rfl⟩ := hembargo
    exact arguments.targetProtocol.positive

-- ==== the admission

section Admission

variable {protocol : FormalEvaluationProtocol} {observations : List EvaluationObservation}
  {frozenTradingDates : List Int} {observation : EvaluationObservation} {window : EvaluationWindow}
  {later : EvaluationWindow}

theorem mem_futureWindows :
    later ∈ futureWindows protocol window ↔ later ∈ protocol.windows ∧ later.fold = window.fold
      ∧ later.partition.order = window.partition.order + 1 := by
  unfold futureWindows
  rw [mem_filter, decide_eq_true_iff]

theorem boundary_eq_some {start : Int} : boundary protocol window = some start
    ↔ (∃ later ∈ futureWindows protocol window, later.startDate = start)
      ∧ ∀ later ∈ futureWindows protocol window, start ≤ later.startDate := by
  unfold boundary
  rw [min?_eq_some_iff, mem_map, forall_mem_map]

/-- Without being withheld, a label ends before every window of the next
partition, and its session is not one of the embargo. -/
theorem not_withheld_iff (hnext : futureWindows protocol window ≠ []) :
    ¬ Withheld protocol observations frozenTradingDates observation window
      ↔ (∀ later ∈ futureWindows protocol window, observation.labelEndDate < later.startDate)
        ∧ observation.sessionDate
          ∉ embargoDates protocol observations frozenTradingDates window := by
  have hne : (futureWindows protocol window).map (·.startDate) ≠ [] := by simpa using hnext
  obtain ⟨start, hstart⟩ := Option.isSome_iff_exists.mp (isSome_min?_of_ne_nil hne)
  obtain ⟨⟨first, hfirst, rfl⟩, hleast⟩ := boundary_eq_some.mp hstart
  unfold Withheld
  rw [show boundary protocol window = _ from hstart]
  constructor
  · intro hfree
    refine ⟨fun later hlater => ?_, fun hembargo => ?_⟩
    · apply lt_of_not_ge
      intro hreach
      exact hfree ⟨_, rfl, .inl ((hleast later hlater).trans hreach)⟩
    · exact hfree ⟨_, rfl, .inr hembargo⟩
  · rintro ⟨hbefore, hembargo⟩ ⟨start, heq, hheld⟩
    cases heq
    rcases hheld with hreach | hsession
    · exact absurd hreach (not_le.mpr (hbefore first hfirst))
    · exact hembargo hsession

theorem mem_admissions : window ∈ admissions protocol observations frozenTradingDates observation
      ↔ window ∈ protocol.windows ∧ window.Contains observation.sessionDate
        ∧ ¬ Withheld protocol observations frozenTradingDates observation window := by
  unfold admissions
  rw [mem_filter, mem_filter, decide_eq_true_iff, decide_eq_true_iff, and_assoc]

theorem admitObservations_ok {admitted : List (EvaluationObservation × EvaluationWindow)}
    {excluded : List String}
    (h : admitObservations protocol observations frozenTradingDates = .ok (admitted, excluded)) :
    frozenTradingDates.Pairwise (· < ·) ∧ (frozenTradingDates ≠ [] → ∀ item ∈ observations,
        item.sessionDate ∈ frozenTradingDates)
      ∧ ∀ observation window, (observation, window) ∈ admitted
        ↔ observation ∈ observations ∧ window ∈ admissions protocol observations
          frozenTradingDates observation := by
  unfold admitObservations at h
  simp only [bind_ok, require_ok, pure_ok, Prod.mk.injEq] at h
  obtain ⟨_, hsorted, _, -, _, hsessions, rfl, -⟩ := h
  refine ⟨?_, fun hne item hitem => (hsessions hne item hitem).1, fun observation window => ?_⟩
  · rw [hsorted]
    exact sortedDistinct_pairwise frozenTradingDates
  · rw [mem_flatMap]
    constructor
    · rintro ⟨item, hitem, hentry⟩
      obtain ⟨other, hother, heq⟩ := mem_map.mp hentry
      cases heq
      exact ⟨hitem, hother⟩
    · rintro ⟨hitem, hwindow⟩
      exact ⟨observation, hitem, mem_map_of_mem hwindow⟩

/-- A session of an increasing list that is not one of the last `n` has `n` of them
after it. -/
theorem later_of_not_mem_rtake {dates : List Int} (hdates : dates.Pairwise (· < ·))
    {n : Nat} {day : Int} (hday : day ∈ dates) (hnot : day ∉ dates.rtake n) :
    (dates.rtake n).length = n ∧ ∀ last ∈ dates.rtake n, day < last := by
  have hsplit : dates = dates.take (dates.length - n) ++ dates.rtake n :=
    (take_append_drop _ _).symm
  have hfirst : day ∈ dates.take (dates.length - n) := by
    rw [hsplit] at hday
    exact (mem_append.mp hday).resolve_right hnot
  constructor
  · have hpos := length_pos_of_mem hfirst
    rw [length_take] at hpos
    rw [length_rtake]
    omega
  · rw [hsplit] at hdates
    exact fun last hlast => (pairwise_append.mp hdates).2.2 day hfirst last hlast

/-- The embargo of a window lies between a session before it and a later window of
the fold that the label does not reach. -/
theorem embargo_between (haccepted : Accepted protocol)
    (hsorted : frozenTradingDates.Pairwise (· < ·)) (hne : frozenTradingDates ≠ [])
    (hwindow : window ∈ protocol.windows)
    (hlater : later ∈ protocol.windows) (hfold : later.fold = window.fold)
    (hcontains : window.Contains observation.sessionDate)
    (hsession : observation.sessionDate ∈ frozenTradingDates)
    (hembargo : observation.sessionDate
      ∉ embargoDates protocol observations frozenTradingDates window)
    (hbefore : observation.labelEndDate < later.startDate) :
    protocol.embargoSessions ≤ (frozenTradingDates.filter fun day =>
      observation.sessionDate < day ∧ day < later.startDate).length := by
  have hpositive := haccepted.embargo
  have hforwards := observation.forwards
  obtain ⟨hstart, hend⟩ := hcontains
  have hends : window.endDate < later.startDate := by
    have hdistinct : window ≠ later := by
      rintro rfl
      omega
    have hapart := haccepted.disjoint window hwindow later hlater hfold.symm hdistinct
    have hnonempty := later.forwards
    rw [max_eq_right (by omega)] at hapart
    rcases min_lt_iff.mp hapart with hlt | hlt
    · exact hlt
    · omega
  -- the dates of the window after the session, and among them the embargo
  let dates := frozenTradingDates.filter (window.Contains ·)
  have hdates : dates.Pairwise (· < ·) := hsorted.sublist filter_sublist
  have hday : observation.sessionDate ∈ dates :=
    mem_filter.mpr ⟨hsession, decide_eq_true ⟨hstart, hend⟩⟩
  have hlast : observation.sessionDate ∉ dates.rtake protocol.embargoSessions := by
    unfold embargoDates lastDates partitionDates at hembargo
    rw [if_neg (by omega), if_pos hne] at hembargo
    exact hembargo
  obtain ⟨hlength, hafter⟩ := later_of_not_mem_rtake hdates hday hlast
  have hbetween : (dates.rtake protocol.embargoSessions).filter (fun day =>
      observation.sessionDate < day ∧ day < later.startDate)
        = dates.rtake protocol.embargoSessions := by
    apply filter_eq_self.mpr
    intro day hmem
    have hin := (mem_filter.mp ((rtake_sublist _ dates).subset hmem)).2
    have hwithin : window.Contains day := of_decide_eq_true hin
    obtain ⟨-, hdayEnd⟩ := hwithin
    exact decide_eq_true ⟨hafter day hmem, by omega⟩
  have hsub : (dates.rtake protocol.embargoSessions).Sublist frozenTradingDates :=
    (rtake_sublist _ dates).trans filter_sublist
  have hle := (hsub.filter fun day => observation.sessionDate < day
    ∧ day < later.startDate).length_le
  rw [hbetween, hlength] at hle
  exact hle

theorem Accepted.exists_future (haccepted : Accepted protocol)
    (hwindow : window ∈ protocol.windows) (hpartition : window.partition ≠ .lockedOos) :
    futureWindows protocol window ≠ [] := by
  obtain ⟨next, hnext⟩ : ∃ next : EvaluationPartition,
      next.order = window.partition.order + 1 := by
    cases hkind : window.partition with
    | train => exact ⟨.validation, rfl⟩
    | validation => exact ⟨.lockedOos, rfl⟩
    | lockedOos => exact absurd hkind hpartition
  obtain ⟨later, hlater, hfold, rfl⟩ := haccepted.partitions window hwindow next
  exact ne_nil_of_mem (mem_futureWindows.mpr ⟨hlater, hfold, hnext⟩)

/-- What is admitted to a window is purged, if a training label also ends before the
locked windows. -/
theorem purged_of_admissions (haccepted : Accepted protocol)
    (hsorted : frozenTradingDates.Pairwise (· < ·))
    (hsession : frozenTradingDates ≠ [] → observation.sessionDate ∈ frozenTradingDates)
    (hadmitted : window ∈ admissions protocol observations frozenTradingDates observation)
    (hclear : window.partition = .train → ∀ locked ∈ protocol.windows,
      locked.fold = window.fold → locked.partition = .lockedOos →
        observation.labelEndDate < locked.startDate) :
    Purged protocol frozenTradingDates observation window := by
  obtain ⟨hwindow, hcontains, hfree⟩ := mem_admissions.mp hadmitted
  intro later hlater hfold horder
  have hpartition : window.partition ≠ .lockedOos := by
    intro hlocked
    rw [hlocked] at horder
    cases hkind : later.partition with
    | train => rw [hkind] at horder; exact absurd horder (by decide)
    | validation => rw [hkind] at horder; exact absurd horder (by decide)
    | lockedOos => rw [hkind] at horder; exact absurd horder (by decide)
  obtain ⟨hnext, hembargo⟩ :=
    (not_withheld_iff (haccepted.exists_future hwindow hpartition)).mp hfree
  have hbefore : observation.labelEndDate < later.startDate := by
    by_cases hone : later.partition.order = window.partition.order + 1
    · exact hnext later (mem_futureWindows.mpr ⟨hlater, hfold, hone⟩)
    · -- two partitions on: a locked window after a training window
      have htrain : window.partition = .train ∧ later.partition = .lockedOos := by
        revert hone horder
        cases window.partition <;> cases later.partition <;> decide
      exact hclear htrain.1 later hlater hfold htrain.2
  exact ⟨hbefore, fun hne => embargo_between haccepted hsorted hne hwindow hlater
    hfold hcontains (hsession hne) hembargo hbefore⟩

theorem length_le_of_within {l : List Int} (hl : l.Pairwise (· < ·)) {a b : Int}
    (hab : a ≤ b) (hwithin : ∀ day ∈ l, a < day ∧ day ≤ b) : a + l.length ≤ b := by
  induction l generalizing a with
  | nil => simpa using hab
  | cons day l ih =>
    obtain ⟨hfirst, hrest⟩ := pairwise_cons.mp hl
    obtain ⟨hday, hdayEnd⟩ := hwithin day mem_cons_self
    have hlength := ih hrest hdayEnd fun other hother =>
      ⟨hfirst other hother, (hwithin other (mem_cons_of_mem day hother)).2⟩
    rw [length_cons]
    omega

/-- A window with a session before its embargo has more days than the embargo. -/
theorem days_of_not_embargo (hpositive : 0 < protocol.embargoSessions)
    (hsorted : frozenTradingDates.Pairwise (· < ·))
    (hsession : frozenTradingDates ≠ [] → observation.sessionDate ∈ frozenTradingDates)
    (hobservation : observation ∈ observations)
    (hcontains : window.Contains observation.sessionDate)
    (hembargo : observation.sessionDate
      ∉ embargoDates protocol observations frozenTradingDates window) :
    window.startDate + protocol.embargoSessions ≤ window.endDate := by
  have hdates : (partitionDates observations frozenTradingDates window).Pairwise
      (· < ·) ∧ observation.sessionDate ∈ partitionDates observations frozenTradingDates window
      ∧ ∀ day ∈ partitionDates observations frozenTradingDates window,
        window.Contains day := by
    unfold partitionDates
    by_cases hne : frozenTradingDates ≠ []
    · rw [if_pos hne]
      exact ⟨hsorted.sublist filter_sublist,
        mem_filter.mpr ⟨hsession hne, decide_eq_true hcontains⟩,
        fun day hday => of_decide_eq_true (mem_filter.mp hday).2⟩
    · rw [if_neg hne]
      refine ⟨sortedDistinct_pairwise _, mem_sortedDistinct.mpr (mem_filter.mpr
        ⟨mem_map_of_mem hobservation, decide_eq_true hcontains⟩), ?_⟩
      intro day hday
      exact of_decide_eq_true (mem_filter.mp (mem_sortedDistinct.mp hday)).2
  obtain ⟨hincreasing, hday, hwithin⟩ := hdates
  unfold embargoDates lastDates at hembargo
  rw [if_neg hpositive.ne'] at hembargo
  obtain ⟨hlength, hafter⟩ := later_of_not_mem_rtake hincreasing hday hembargo
  have hcount := length_le_of_within (hincreasing.sublist (rtake_sublist _ _))
    hcontains.2 fun other hother =>
      ⟨hafter other hother, (hwithin other ((rtake_sublist _ _).subset hother)).2⟩
  have hstart := hcontains.1
  omega

end Admission

-- ==== the leakage

section Leakage

variable {protocol : FormalEvaluationProtocol} {observations : List EvaluationObservation}
  {frozenTradingDates : List Int} {admitted : List (EvaluationObservation × EvaluationWindow)}
  {excluded : List String}

/-- A set of observations leaks nothing when its labels are clear. -/
theorem purged_iff_labelsClear (haccepted : Accepted protocol)
    (h : admitObservations protocol observations frozenTradingDates = .ok (admitted, excluded)) :
    (∀ entry ∈ admitted, Purged protocol frozenTradingDates entry.1 entry.2)
      ↔ LabelsClear protocol observations frozenTradingDates := by
  obtain ⟨hsorted, hsessions, hentries⟩ := admitObservations_ok h
  constructor
  case mp =>
    intro hpurged window hwindow htrain observation hobservation hcontains hvalidation
      hembargo locked hlocked hfold hkind
    have hfuture := haccepted.exists_future hwindow (by rw [htrain]; decide)
    have hfree : ¬ Withheld protocol observations frozenTradingDates observation
        window := by
      rw [not_withheld_iff hfuture]
      refine ⟨fun later hlater => ?_, hembargo⟩
      obtain ⟨hmem, hsame, horder⟩ := mem_futureWindows.mp hlater
      apply hvalidation later hmem hsame
      rw [htrain] at horder
      revert horder
      cases later.partition <;> decide
    have hadmitted : (observation, window) ∈ admitted := (hentries _ _).mpr
      ⟨hobservation, mem_admissions.mpr ⟨hwindow, hcontains, hfree⟩⟩
    refine (hpurged _ hadmitted locked hlocked hfold ?_).1
    rw [htrain, hkind]
    decide
  case mpr =>
    intro hclear entry hentry
    obtain ⟨hobservation, hadmitted⟩ := (hentries entry.1 entry.2).mp hentry
    obtain ⟨hwindow, hcontains, hfree⟩ := mem_admissions.mp hadmitted
    refine purged_of_admissions haccepted hsorted
      (fun hne => hsessions hne entry.1 hobservation) hadmitted fun htrain => ?_
    have hfuture := haccepted.exists_future hwindow (by rw [htrain]; decide)
    obtain ⟨hnext, hembargo⟩ := (not_withheld_iff hfuture).mp hfree
    apply hclear entry.2 hwindow htrain entry.1 hobservation hcontains _ hembargo
    intro validation hvalidation hfold hkind
    apply hnext validation (mem_futureWindows.mpr ⟨hvalidation, hfold, _⟩)
    rw [hkind, htrain]
    rfl

theorem purged_of_foldsForward (haccepted : Accepted protocol) (hforward : FoldsForward protocol)
    (h : admitObservations protocol observations frozenTradingDates = .ok (admitted, excluded)) :
    ∀ entry ∈ admitted, Purged protocol frozenTradingDates entry.1 entry.2 := by
  obtain ⟨hsorted, hsessions, -⟩ := admitObservations_ok h
  rw [purged_iff_labelsClear haccepted h]
  intro window hwindow htrain observation hobservation hcontains hvalidation hembargo
    locked hlocked hfold hkind
  have hdays := days_of_not_embargo haccepted.embargo hsorted
    (fun hne => hsessions hne observation hobservation) hobservation hcontains hembargo
  obtain ⟨validation, hmem, hsame, hvalid, hstart⟩ :=
    hforward window hwindow htrain hdays locked hlocked hfold hkind
  have hbefore := hvalidation validation hmem hsame hvalid
  have hsession := observation.forwards
  have hwindowStart := hcontains.1
  rcases le_max_iff.mp hstart with hle | hle
  · omega
  · omega

def quietObservation (day : Int) : EvaluationObservation where
  observationId := toString day
  sessionDate := day
  labelEndDate := day
  forwards := le_rfl

/-- An observation of the first session of a window with a label to the start of
another one, and quiet ones on the days of the embargo. -/
def leakingObservations (window locked : EvaluationWindow) (embargo : Nat) :
    List EvaluationObservation :=
  ⟨"leak", window.startDate, max window.startDate locked.startDate, le_max_left _ _⟩
    :: (List.range embargo).map fun i => quietObservation (window.startDate + 1 + (i : Nat))

theorem embargoDates_leaking {window locked : EvaluationWindow}
    (hpositive : 0 < protocol.embargoSessions)
    (hdays : window.startDate + protocol.embargoSessions ≤ window.endDate) :
    window.startDate ∉ embargoDates protocol
      (leakingObservations window locked protocol.embargoSessions) [] window := by
  let days := (List.range protocol.embargoSessions).map fun i : Nat =>
    window.startDate + 1 + (i : Int)
  have hmem : ∀ day ∈ days, window.startDate < day ∧ window.Contains day := by
    intro day hday
    obtain ⟨i, hi, rfl⟩ := mem_map.mp hday
    have hlt := mem_range.mp hi
    exact ⟨by omega, by constructor <;> omega⟩
  have hincreasing : (window.startDate :: days).Pairwise (· < ·) := by
    rw [pairwise_cons]
    refine ⟨fun day hday => (hmem day hday).1, ?_⟩
    rw [pairwise_map]
    exact pairwise_lt_range.imp fun hlt => by omega
  have hdates : partitionDates (leakingObservations window locked
      protocol.embargoSessions) [] window = window.startDate :: days := by
    have hsessions : (leakingObservations window locked protocol.embargoSessions).map
        (·.sessionDate) = window.startDate :: days := by
      unfold leakingObservations
      rw [map_cons, map_map]
      rfl
    unfold partitionDates
    rw [if_neg (fun hne => hne rfl), hsessions, filter_eq_self.mpr,
      sortedDistinct_of_pairwise hincreasing]
    intro day hday
    apply decide_eq_true
    rcases mem_cons.mp hday with rfl | hday
    · exact ⟨le_rfl, window.forwards⟩
    · exact (hmem day hday).2
  have hlast : (window.startDate :: days).rtake protocol.embargoSessions = days := by
    unfold List.rtake
    rw [length_cons, show days.length = protocol.embargoSessions by simp [days],
      Nat.add_sub_cancel_left]
    rfl
  unfold embargoDates lastDates
  rw [if_neg hpositive.ne', hdates, hlast]
  exact fun hday => lt_irrefl _ (hmem _ hday).1

theorem foldsForward_of_purged (haccepted : Accepted protocol)
    (h : ∀ observations frozenTradingDates admitted excluded,
      admitObservations protocol observations frozenTradingDates = .ok (admitted, excluded) →
      ∀ entry ∈ admitted, Purged protocol frozenTradingDates entry.1 entry.2) :
    FoldsForward protocol := by
  intro window hwindow htrain hdays locked hlocked hfold hkind
  by_contra hnone
  push Not at hnone
  let leaking := leakingObservations window locked protocol.embargoSessions
  have hrun : admitObservations protocol leaking [] = .ok (leaking.flatMap fun observation =>
          (admissions protocol leaking [] observation).map fun window => (observation, window),
        ((leaking.filter fun observation =>
          admissions protocol leaking [] observation = []).map
            (·.observationId)).dedup) := by
    unfold admitObservations
    rfl
  have hpurged := h leaking [] _ _ hrun
  rw [purged_iff_labelsClear haccepted hrun] at hpurged
  have hbefore := hpurged window hwindow htrain _ mem_cons_self ⟨le_rfl, window.forwards⟩
    (fun validation hvalidation hsame hvalid => hnone validation hvalidation hsame hvalid)
    (embargoDates_leaking haccepted.embargo hdays) locked hlocked hfold hkind
  exact absurd (le_max_right window.startDate locked.startDate) (not_le.mpr hbefore)

end Leakage

/-- A protocol that was created keeps its partitions apart for a set of observations
exactly when their labels are clear, and for every set exactly when its folds run
forwards. -/
theorem partitions_apart_iff {arguments : ProtocolArguments} {protocol : FormalEvaluationProtocol}
    (h : FormalEvaluationProtocol.create arguments = .ok protocol) :
    (∀ observations frozenTradingDates admitted excluded,
      admitObservations protocol observations frozenTradingDates = .ok (admitted, excluded) →
      ((∀ entry ∈ admitted, Purged protocol frozenTradingDates entry.1 entry.2)
        ↔ LabelsClear protocol observations frozenTradingDates))
      ∧ ((∀ observations frozenTradingDates admitted excluded,
          admitObservations protocol observations frozenTradingDates = .ok (admitted, excluded) →
          ∀ entry ∈ admitted, Purged protocol frozenTradingDates entry.1 entry.2)
        ↔ FoldsForward protocol) := by
  have haccepted := accepted_of_create h
  refine ⟨fun _ _ _ _ hrun => purged_iff_labelsClear haccepted hrun,
    fun hpurged => foldsForward_of_purged haccepted hpurged, ?_⟩
  intro hforward _ _ _ _ hrun
  exact purged_of_foldsForward haccepted hforward hrun

variable (validation locked : Int)

def foldWindows : List EvaluationWindow :=
  [⟨"locked", .lockedOos, locked, locked + 9, 1, by omega, by decide⟩,
    ⟨"train", .train, 1, 10, 1, by decide, by decide⟩,
    ⟨"validation", .validation, validation, validation + 9, 1, by omega, by decide⟩]

def foldArguments : ProtocolArguments where
  protocolVersion := "1"
  targetProtocol := ⟨1, ["return"], by decide⟩
  windows := foldWindows validation locked
  bootstrapIterations := 100
  bootstrapBlockSessions := 1
  confidenceLevel := 1 / 2
  multipleTestingMethod := .bonferroni
  multipleTestingErrorRate := .fwer
  hypothesisSpecs := formalEvaluationMetricNames
  hypothesisFamilyId := none
  topK := 5
  sensitivityReturnMultipliers := [1]

def foldProtocol : FormalEvaluationProtocol where
  protocolVersion := "1"
  windows := foldWindows validation locked
  embargoSessions := 1
  bootstrapIterations := 100
  bootstrapBlockSessions := 1
  confidenceLevel := 1 / 2
  multipleTestingMethod := .bonferroni
  multipleTestingErrorRate := .fwer
  hypothesisFamilyId := "ENGINEERING:" ++ "1"
  hypothesisSpecs := formalEvaluationMetricNames
  topK := 5
  sensitivityReturnMultipliers := [1]

theorem create_fold {validation locked : Int}
    (hwindows : sortBy windowKey (foldWindows validation locked) = foldWindows validation locked)
    (hfolds : validateFoldWindows (foldWindows validation locked) = .ok ()) :
    FormalEvaluationProtocol.create (foldArguments validation locked)
      = .ok (foldProtocol validation locked) := by
  have hnames : sortBy id formalEvaluationMetricNames = formalEvaluationMetricNames := by
    decide +kernel
  have hsensitivity : sortedDistinct ([1] : List ℚ) = [1] := by decide
  have hids : ((foldWindows validation locked).map (·.windowId)).Nodup := by
    show ["locked", "train", "validation"].Nodup
    decide
  have hstatistics : (0 : ℚ) < 1 / 2 ∧ (1 / 2 : ℚ) < 1 := by norm_num
  unfold FormalEvaluationProtocol.create
  simp only [bind_ok, require_ok, pure_ok, foldArguments, hwindows, hnames, hsensitivity]
  exact ⟨(), ⟨cons_ne_nil _ _, hids⟩,
    (), require_true ⟨hstatistics.1, hstatistics.2, by decide⟩ _, (), trivial,
    (), require_true (by decide) _, (), by decide, (), hfolds, 1, rfl, rfl⟩

/-- Training, validation and locked windows in their order leak nothing. -/
theorem partitions_apart_forward : FoldsForward (foldProtocol 11 21)
    ∧ ∀ observations frozenTradingDates admitted excluded,
      admitObservations (foldProtocol 11 21) observations frozenTradingDates
        = .ok (admitted, excluded) →
      ∀ entry ∈ admitted, Purged (foldProtocol 11 21) frozenTradingDates entry.1 entry.2 := by
  have hforward : FoldsForward (foldProtocol 11 21) := by
    unfold FoldsForward
    decide
  exact ⟨hforward, (partitions_apart_iff (create_fold (by decide) (by decide))).2.mpr hforward⟩

/-- With the locked window before the validation window, a training label that
reaches into it is admitted. -/
theorem label_in_locked_window :
    FormalEvaluationProtocol.create (foldArguments 21 11) = .ok (foldProtocol 21 11)
      ∧ ∃ admitted excluded, admitObservations (foldProtocol 21 11)
          [⟨"leak", 5, 15, by decide⟩, ⟨"quiet", 6, 6, by decide⟩] [] = .ok (admitted, excluded)
        ∧ ∃ entry ∈ admitted, ∃ later ∈ (foldProtocol 21 11).windows,
          later.fold = entry.2.fold ∧ entry.2.partition.order < later.partition.order
            ∧ later.startDate ≤ entry.1.labelEndDate :=
  ⟨create_fold (by decide) (by decide), _, _, rfl, by decide⟩

end MarketRegimeAlpha.ResearchValidation
