/-
No look-ahead in the validity statistics: what is reported through a session
depends on the pairs through that session only.

# The shape of the argument

The roster is strictly sorted, so it is a part through the session followed by
a part after it. Each of the three tables is built along the roster, and its
entries through the session are the table of the first part alone; that table
reads the groups of its own sessions and no others. Two runs that agree on the
first part and on those groups therefore have the same entries.
-/
import MarketRegimeAlpha.ResearchQualification.ValidityStatistics

namespace MarketRegimeAlpha.ResearchQualification

open Lib List

-- ==== the tables, by session

section Tables

variable {group group' : Session → List ValidityPair} {front rest : List Session} {d : Session}
variable {rankingK quantiles minimumSessions minimumObservations width : Nat}
variable {α : Type} {l m : List α}

theorem filter_append_of {p : α → Bool} (hl : ∀ x ∈ l, p x = true) (hm : ∀ x ∈ m, ¬ p x = true) :
    (l ++ m).filter p = l := by
  rw [filter_append, filter_eq_self.mpr hl,
    filter_eq_nil_iff.mpr hm, append_nil]

theorem accumulate_append (count : Nat) (a b : List SessionReport) :
    ∃ count', accumulate count (a ++ b) = accumulate count a ++ accumulate count' b := by
  induction a generalizing count with
  | nil => exact ⟨count, rfl⟩
  | cons report a ih =>
    obtain ⟨count', heq⟩ := ih (count + report.commonObservationCount)
    refine ⟨count', ?_⟩
    simp only [cons_append, accumulate]
    rw [heq]

theorem accumulate_sessions (count : Nat) (reports : List SessionReport) :
    (accumulate count reports).map (·.session) = reports.map (·.session) := by
  induction reports generalizing count with
  | nil => rfl
  | cons report reports ih =>
    simp only [accumulate, map_cons]
    rw [ih]

theorem perSession_sessions (group : Session → List ValidityPair)
    (rankingK quantiles : Nat) (sessions : List Session) :
    (perSession group rankingK quantiles sessions).map (·.session) = sessions := by
  unfold perSession
  rw [accumulate_sessions, map_map]
  exact map_id sessions

theorem perSession_length (group : Session → List ValidityPair)
    (rankingK quantiles : Nat) (sessions : List Session) :
    (perSession group rankingK quantiles sessions).length = sessions.length := by
  rw [← length_map (f := (·.session)), perSession_sessions]

theorem perSession_append (group : Session → List ValidityPair)
    (rankingK quantiles : Nat) (front rest : List Session) :
    ∃ rows, perSession group rankingK quantiles (front ++ rest)
        = perSession group rankingK quantiles front ++ rows
      ∧ rows.map (·.session) = rest := by
  unfold perSession
  rw [map_append]
  obtain ⟨count, heq⟩ := accumulate_append 0 (front.map fun session =>
      sessionReport (group session) session rankingK quantiles)
    (rest.map fun session => sessionReport (group session) session rankingK quantiles)
  refine ⟨_, heq, ?_⟩
  rw [accumulate_sessions, map_map]
  exact map_id rest

theorem perSession_congr (rankingK quantiles : Nat)
    (hgroup : ∀ session ∈ front, group session = group' session) :
    perSession group rankingK quantiles front = perSession group' rankingK quantiles front := by
  unfold perSession
  congr 1
  refine map_congr_left fun session hsession => ?_
  rw [hgroup session hsession]

variable (hfront : ∀ session ∈ front, session ≤ d)

include hfront in
theorem perSession_through (hrest : ∀ session ∈ rest, ¬ session ≤ d) :
    (perSession group rankingK quantiles (front ++ rest)).filter
        (·.session ≤ d)
      = perSession group rankingK quantiles front := by
  obtain ⟨rows, heq, hrows⟩ := perSession_append group rankingK quantiles front rest
  rw [heq]
  refine filter_append_of (fun row hrow => ?_) fun row hrow => ?_
  · have hmem := mem_map_of_mem (f := (·.session)) hrow
    rw [perSession_sessions] at hmem
    exact decide_eq_true (hfront _ hmem)
  · have hmem := mem_map_of_mem (f := (·.session)) hrow
    rw [hrows] at hmem
    simpa using hrest _ hmem

variable {index : Nat} {rows : List SessionRow}

theorem window_append (hindex : index < l.length) :
    window width index (l ++ m) = window width index l := by
  unfold window
  rw [take_append_of_le_length (by omega)]

theorem mem_of_mem_window {l : List α} {x : α} (hx : x ∈ window width index l) : x ∈ l :=
  mem_of_mem_take (mem_of_mem_drop hx)

theorem window_last {l : List α} (hwidth : l.length ≤ width) :
    window width (l.length - 1) l = l := by
  unfold window
  rw [take_of_length_le (by omega)]
  cases l with
  | nil => exact drop_nil
  | cons a l =>
    rw [length_cons] at hwidth ⊢
    rw [show l.length + 1 - 1 + 1 - width = 0 by omega, drop_zero]

theorem rollingEntry_congr {session : Session}
    (hgroup : ∀ session ∈ front, group session = group' session) :
    rollingEntry group rows minimumSessions minimumObservations width front session index
      = rollingEntry group' rows minimumSessions minimumObservations width
        front session index := by
  have hflat : (window width index front).flatMap group
      = (window width index front).flatMap group' :=
    flatMap_congr fun session hsession => hgroup session (mem_of_mem_window hsession)
  unfold rollingEntry
  rw [hflat]

variable (hgroup : ∀ session ∈ front, group session = group' session)

include hgroup in
theorem rolling_congr : rolling group rows minimumSessions minimumObservations width front
      = rolling group' rows minimumSessions minimumObservations width front := by
  exact map_congr_left fun entry _ => rollingEntry_congr hgroup

theorem rolling_through {rows more : List SessionRow} (hrows : rows.length = front.length)
    (hfront : ∀ session ∈ front, session ≤ d) (hrest : ∀ session ∈ rest, ¬ session ≤ d) :
    (rolling group (rows ++ more) minimumSessions minimumObservations width
        (front ++ rest)).filter (·.throughSession ≤ d)
      = rolling group rows minimumSessions minimumObservations width front := by
  have hentries : ∀ entry ∈ front.zipIdx,
      rollingEntry group (rows ++ more) minimumSessions minimumObservations
          width (front ++ rest) entry.1 entry.2
        = rollingEntry group rows minimumSessions minimumObservations width
          front entry.1 entry.2 := by
    intro entry hentry
    have hindex : entry.2 < front.length := by
      have := snd_lt_of_mem_zipIdx hentry
      omega
    unfold rollingEntry
    rw [window_append hindex, window_append (by omega)]
  unfold rolling
  rw [zipIdx_append, map_append, map_congr_left hentries]
  refine filter_append_of (fun entry hentry => ?_) fun entry hentry => ?_
  · obtain ⟨pair, hpair, rfl⟩ := mem_map.mp hentry
    exact decide_eq_true (hfront _ (fst_mem_of_mem_zipIdx hpair))
  · obtain ⟨pair, hpair, rfl⟩ := mem_map.mp hentry
    have hmem := fst_mem_of_mem_zipIdx hpair
    exact fun hle => hrest _ hmem (of_decide_eq_true hle)

include hgroup in
theorem rankStability_congr : rankStability group front = rankStability group' front := by
  refine map_congr_left fun ⟨left, right⟩ hpair => ?_
  obtain ⟨hleft, hright⟩ := of_mem_zip hpair
  show stability (group left) (group right) left right = _
  rw [hgroup _ hleft, hgroup _ (mem_of_mem_tail hright)]

include hfront in
/-- The adjacent pairs through a session are those of the sessions through
it. -/
theorem adjacent_through (hrest : ∀ session ∈ rest, ¬ session ≤ d) :
    ((front ++ rest).zip (front ++ rest).tail).filter (·.2 ≤ d) = front.zip front.tail := by
  have hlater : ∀ (before : List Session), (before.zip rest).filter (·.2 ≤ d) = [] := by
    intro before
    rw [filter_eq_nil_iff]
    intro pair hpair
    simpa using hrest _ (of_mem_zip (a := pair.1) (b := pair.2) hpair).2
  induction front with
  | nil =>
    rw [nil_append, zip_nil_left, filter_eq_nil_iff]
    intro pair hpair
    have hmem := (of_mem_zip (a := pair.1) (b := pair.2) hpair).2
    simpa using hrest _ (mem_of_mem_tail hmem)
  | cons a front ih =>
    cases front with
    | nil => exact hlater (a :: rest)
    | cons b front =>
      have hb : b ≤ d := hfront b (by simp)
      have htail := ih fun session hsession => hfront session (mem_cons_of_mem a hsession)
      simp only [cons_append, tail_cons, zip_cons_cons] at htail ⊢
      rw [filter_cons_of_pos (by simpa using hb), htail]

include hfront in
theorem rankStability_through (hrest : ∀ session ∈ rest, ¬ session ≤ d) :
    (rankStability group (front ++ rest)).filter (·.session ≤ d) = rankStability group front := by
  unfold rankStability
  rw [filter_map]
  exact congrArg _ (adjacent_through hfront hrest)

end Tables

-- ==== two runs

section Runs

variable {pairs pairs' : List ValidityPair} {parameters : ValidityParameters}
variable {roster roster' : Option (List Session)}
variable {report report' : ValidityReport} {group : Session → List ValidityPair}
  {rows : List SessionRow} {minimumSessions minimumObservations width : Nat}
  {sessions : List Session} {d : Session}

structure Accepted (pairs : List ValidityPair) (roster : Option (List Session)) : Prop where
  /-- No commitment occurs twice in a session. -/
  distinct : (pairs.map fun pair => (pair.session, pair.commitmentId)).Nodup
  /-- The sessions are strictly sorted. -/
  sorted : (rosterOf pairs roster).Pairwise (· < ·)

theorem accepted_of_checks {u : Unit} (h : validityChecks pairs parameters roster = .ok u) :
    Accepted pairs roster := by
  obtain ⟨_, -, h⟩ := bind_ok.mp h
  obtain ⟨_, hdistinct, h⟩ := bind_ok.mp h
  obtain ⟨_, hsorted, -⟩ := bind_ok.mp h
  refine ⟨require_ok.mp hdistinct, ?_⟩
  cases roster with
  | none => exact sortedDistinct_pairwise _
  | some sessions =>
    rw [require_ok.mp hsorted sessions rfl]
    exact sortedDistinct_pairwise _

theorem validityStatistics_ok (h : validityStatistics pairs parameters roster = .ok report) :
    Accepted pairs roster ∧ validityReport pairs parameters roster = report := by
  obtain ⟨u, hchecks, hreport⟩ := bind_ok.mp h
  exact ⟨accepted_of_checks hchecks, Except.ok.inj hreport⟩

/-- Two runs on the same pairs and the same sessions through a session. -/
structure AgreeThrough (d : Session) (pairs pairs' : List ValidityPair)
    (roster roster' : Option (List Session)) : Prop where
  onPairs : ∀ pair : ValidityPair, pair.session ≤ d → (pair ∈ pairs ↔ pair ∈ pairs')
  onRoster : ∀ session ≤ d, (session ∈ rosterOf pairs roster ↔ session ∈ rosterOf pairs' roster')

theorem AgreeThrough.of_undeclared
    (h : ∀ pair : ValidityPair, pair.session ≤ d → (pair ∈ pairs ↔ pair ∈ pairs')) :
    AgreeThrough d pairs pairs' none none := by
  refine ⟨h, fun session hsession => ?_⟩
  show session ∈ sortedDistinct _ ↔ session ∈ sortedDistinct _
  rw [mem_sortedDistinct, mem_sortedDistinct, mem_map, mem_map]
  constructor
  · rintro ⟨pair, hpair, rfl⟩
    exact ⟨pair, (h pair hsession).mp hpair, rfl⟩
  · rintro ⟨pair, hpair, rfl⟩
    exact ⟨pair, (h pair hsession).mpr hpair, rfl⟩

variable (h : Accepted pairs roster)

include h in
theorem Accepted.commitments (session : Session) :
    ((pairs.filter (·.session = session)).map (·.commitmentId)).Nodup := by
  have hpairs : pairs.Nodup := Nodup.of_map _ h.distinct
  rw [nodup_map_iff_inj_on (hpairs.filter _)]
  intro pair hpair pair' hpair' hid
  obtain ⟨hmem, hs⟩ := mem_filter.mp hpair
  obtain ⟨hmem', hs'⟩ := mem_filter.mp hpair'
  refine inj_on_of_nodup_map h.distinct hmem hmem' ?_
  rw [of_decide_eq_true hs, of_decide_eq_true hs', hid]

include h in
theorem grouped_congr (h' : Accepted pairs' roster') {session : Session}
    (hmem : ∀ pair : ValidityPair, pair.session = session → (pair ∈ pairs ↔ pair ∈ pairs')) :
    grouped pairs session = grouped pairs' session := by
  have hnd := h.commitments session
  have hnd' := h'.commitments session
  have hperm : (pairs.filter (·.session = session)).Perm (pairs'.filter (·.session = session)) := by
    rw [perm_ext_iff_of_nodup (Nodup.of_map _ hnd) (Nodup.of_map _ hnd')]
    intro pair
    simp only [mem_filter, decide_eq_true_eq]
    constructor
    · rintro ⟨hpair, hsession⟩
      exact ⟨(hmem pair hsession).mp hpair, hsession⟩
    · rintro ⟨hpair, hsession⟩
      exact ⟨(hmem pair hsession).mpr hpair, hsession⟩
  exact sortBy_eq_of_perm hperm hnd

include h in
/-- The entries of a report through a session, from its sessions through it. -/
theorem report_through (parameters : ValidityParameters) (d : Session) :
    let front := (rosterOf pairs roster).filter (· ≤ d)
    let rows := perSession (grouped pairs) parameters.rankingK.toNat
      parameters.quantiles.toNat front
    let report := validityReport pairs parameters roster
    report.perSession.filter (·.session ≤ d) = rows
    ∧ report.rolling.filter (·.throughSession ≤ d)
      = rolling (grouped pairs) rows parameters.minimumSessions.toNat
          parameters.minimumObservations.toNat
          parameters.rollingSessions.toNat front
    ∧ report.rankStability.filter (·.session ≤ d) = rankStability (grouped pairs) front := by
  intro front rows report
  obtain ⟨rest, hsplit, hrest⟩ := eq_filter_append h.sorted d
  have hfront : ∀ session ∈ front, session ≤ d := by
    intro session hsession
    exact of_decide_eq_true (mem_filter.mp hsession).2
  have hroster : rosterOf pairs roster = front ++ rest := hsplit
  refine ⟨?_, ?_, ?_⟩
  · show (perSession _ _ _ (rosterOf pairs roster)).filter _ = _
    rw [hroster]
    exact perSession_through hfront hrest
  · show (rolling _ (perSession _ _ _ (rosterOf pairs roster)) _ _ _
      (rosterOf pairs roster)).filter _ = _
    rw [hroster]
    obtain ⟨more, hmore, -⟩ := perSession_append (grouped pairs)
      parameters.rankingK.toNat parameters.quantiles.toNat front rest
    rw [hmore]
    exact rolling_through (perSession_length _ _ _ front) hfront hrest
  · show (rankStability _ (rosterOf pairs roster)).filter _ = _
    rw [hroster]
    exact rankStability_through hfront hrest

/-- Two reports with the same entries through a session. -/
structure SameThrough (d : Session) (report report' : ValidityReport) : Prop where
  perSession : report.perSession.filter (·.session ≤ d) = report'.perSession.filter (·.session ≤ d)
  rolling : report.rolling.filter (·.throughSession ≤ d)
    = report'.rolling.filter (·.throughSession ≤ d)
  rankStability : report.rankStability.filter (·.session ≤ d)
    = report'.rankStability.filter (·.session ≤ d)

include h in
theorem sameThrough (h' : Accepted pairs' roster')
    (hagree : AgreeThrough d pairs pairs' roster roster') :
    SameThrough d (validityReport pairs parameters roster)
      (validityReport pairs' parameters roster') := by
  have hfront : (rosterOf pairs roster).filter (· ≤ d)
      = (rosterOf pairs' roster').filter (· ≤ d) := by
    refine eq_of_pairwise_lt (h.sorted.filter _) (h'.sorted.filter _) fun session => ?_
    simp only [mem_filter, decide_eq_true_eq]
    constructor
    · rintro ⟨hmem, hle⟩
      exact ⟨(hagree.onRoster session hle).mp hmem, hle⟩
    · rintro ⟨hmem, hle⟩
      exact ⟨(hagree.onRoster session hle).mpr hmem, hle⟩
  have hgroup : ∀ session ∈ (rosterOf pairs' roster').filter (· ≤ d),
      grouped pairs session = grouped pairs' session := by
    intro session hsession
    have hle : session ≤ d := of_decide_eq_true (mem_filter.mp hsession).2
    refine grouped_congr h h' fun pair hpair => hagree.onPairs pair ?_
    rw [hpair]
    exact hle
  obtain ⟨hrows, hrolling, hstability⟩ := report_through h parameters d
  obtain ⟨hrows', hrolling', hstability'⟩ := report_through h' parameters d
  have hsame := perSession_congr parameters.rankingK.toNat parameters.quantiles.toNat hgroup
  constructor
  case perSession => rw [hrows, hrows', hfront, hsame]
  case rolling => rw [hrolling, hrolling', hfront, hsame, rolling_congr hgroup]
  case rankStability => rw [hstability, hstability', hfront, rankStability_congr hgroup]

-- ==== the order of the pairs

theorem rosterOf_perm (h : pairs.Perm pairs') (roster : Option (List Session)) :
    rosterOf pairs roster = rosterOf pairs' roster := by
  cases roster with
  | some sessions => rfl
  | none => exact sortedDistinct_congr fun x => (h.map _).mem_iff

theorem validityChecks_perm (h : pairs.Perm pairs')
    (parameters : ValidityParameters) (roster : Option (List Session)) :
    validityChecks pairs parameters roster = validityChecks pairs' parameters roster := by
  have hgroup : ∀ session, ((grouped pairs session).filterMap (·.instrumentId)).Perm
        ((grouped pairs' session).filterMap (·.instrumentId)) := by
    intro session
    refine Perm.filterMap _ ?_
    exact (sortBy_perm _ _).trans ((h.filter _).trans (sortBy_perm _ _).symm)
  unfold validityChecks
  rw [require_congr _ (h.map fun pair => (pair.session, pair.commitmentId)).nodup_iff,
    rosterOf_perm h roster]
  congr 1
  funext _
  congr 1
  funext _
  congr 1
  funext _
  have hinside : (∀ r ∈ roster, ∀ pair ∈ pairs, pair.session ∈ r)
      ↔ ∀ r ∈ roster, ∀ pair ∈ pairs', pair.session ∈ r := by
    simp only [h.mem_iff]
  rw [require_congr _ hinside]
  congr 1
  funext _
  exact require_congr _ (by simp only [(hgroup _).nodup_iff])

theorem validityStatistics_perm (h : pairs.Perm pairs')
    (parameters : ValidityParameters) (roster : Option (List Session)) :
    validityStatistics pairs parameters roster = validityStatistics pairs' parameters roster := by
  unfold validityStatistics
  have hchecks' := validityChecks_perm h parameters roster
  cases hchecks : validityChecks pairs parameters roster with
  | error e =>
    rw [← hchecks', hchecks]
    rfl
  | ok u =>
    rw [← hchecks', hchecks]
    have hgroup : grouped pairs = grouped pairs' := by
      funext session
      exact grouped_congr (accepted_of_checks hchecks)
        (accepted_of_checks (hchecks'.symm.trans hchecks))
        fun pair _ => h.mem_iff
    have hobserved : sortedDistinct (pairs.map (·.session))
        = sortedDistinct (pairs'.map (·.session)) :=
      sortedDistinct_congr fun session => (h.map _).mem_iff
    unfold validityReport
    rw [hgroup, hobserved, rosterOf_perm h roster, h.length_eq]

-- ==== the full window

theorem rolling_last {entry : RollingEntry}
    (hrows : rows.length = sessions.length) (hwidth : sessions.length ≤ width)
    (hlast : (rolling group rows minimumSessions minimumObservations width
      sessions).getLast? = some entry) :
    entry.aggregate = aggregate (sessions.flatMap group) rows minimumSessions
      minimumObservations := by
  unfold rolling at hlast
  rw [getLast?_map, getLast?_eq_getElem?, length_zipIdx,
    getElem?_zipIdx, Nat.zero_add, Option.map_map,
    Option.map_eq_some_iff] at hlast
  obtain ⟨session, -, rfl⟩ := hlast
  show aggregate ((window width (sessions.length - 1) sessions).flatMap group)
    (window width (sessions.length - 1) rows) _ _ = _
  rw [window_last hwidth, ← hrows, window_last (hrows.trans_le hwidth)]

theorem rolling_ne_nil (h : sessions ≠ []) :
    rolling group rows minimumSessions minimumObservations width sessions ≠ [] := by
  unfold rolling
  rw [ne_eq, map_eq_nil_iff, zipIdx_eq_nil_iff]
  exact h

end Runs

-- ==== the statistics

/-- The statistics do not look ahead: accepted runs that agree through a
session report the same through it; the order of the pairs does not matter;
and a rolling window as long as the roster ends in the full aggregate. -/
theorem validity_statistics_sound (parameters : ValidityParameters) :
    (∀ pairs pairs' roster roster' report report' (d : Session),
      validityStatistics pairs parameters roster = .ok report →
      validityStatistics pairs' parameters roster' = .ok report' →
      AgreeThrough d pairs pairs' roster roster' →
      SameThrough d report report')
    ∧ (∀ pairs pairs' roster, pairs.Perm pairs' → validityStatistics pairs parameters roster
        = validityStatistics pairs' parameters roster)
    ∧ ∀ pairs roster report entry, validityStatistics pairs parameters roster = .ok report →
      (report.sessionRoster.length : Int) ≤ parameters.rollingSessions →
      report.rolling.getLast? = some entry →
      entry.aggregate = report.aggregate := by
  refine ⟨?_, ?_, ?_⟩
  · intro pairs pairs' roster roster' report report' d hrun hrun' hagree
    obtain ⟨haccepted, rfl⟩ := validityStatistics_ok hrun
    obtain ⟨haccepted', rfl⟩ := validityStatistics_ok hrun'
    exact sameThrough haccepted haccepted' hagree
  · intro pairs pairs' roster hperm
    exact validityStatistics_perm hperm parameters roster
  · intro pairs roster report entry hrun hwidth hlast
    obtain ⟨-, rfl⟩ := validityStatistics_ok hrun
    have hlength : ((rosterOf pairs roster).length : Int) ≤ parameters.rollingSessions := hwidth
    exact rolling_last (perSession_length _ _ _ _) (by omega) hlast

def samplePairs : List ValidityPair :=
  [⟨1, 1, 1 / 100, 0, 1 / 50, some 7⟩, ⟨2, 1, 1 / 50, 0, 0, some 8⟩,
    ⟨3, 2, -1 / 100, 1 / 100, 1 / 50, some 7⟩, ⟨4, 3, 1 / 20, 0, 1 / 10, none⟩]

def sampleRevised : List ValidityPair :=
  [⟨5, 4, 1 / 4, 0, -1 / 2, some 9⟩, ⟨3, 2, -1 / 100, 1 / 100, 1 / 50, some 7⟩,
    ⟨2, 1, 1 / 50, 0, 0, some 8⟩, ⟨1, 1, 1 / 100, 0, 1 / 50, some 7⟩]

def sampleParameters : ValidityParameters := ⟨1, 1, 20, 1, 2⟩

theorem validity_statistics_sound_sample : ∃ report report' entry,
      validityStatistics samplePairs sampleParameters none = .ok report
      ∧ validityStatistics sampleRevised sampleParameters none = .ok report'
      ∧ SameThrough 2 report report'
      ∧ validityStatistics samplePairs sampleParameters none
        = validityStatistics samplePairs.reverse sampleParameters none
      ∧ report.rolling.getLast? = some entry
      ∧ entry.aggregate = report.aggregate := by
  obtain ⟨hthrough, hperm, hfull⟩ := validity_statistics_sound sampleParameters
  obtain ⟨report, hrun⟩ := exists_of_isOk (x := validityStatistics samplePairs
    sampleParameters none) (by decide +kernel)
  obtain ⟨report', hrun'⟩ := exists_of_isOk (x := validityStatistics
    sampleRevised sampleParameters none) (by decide +kernel)
  have hagree : AgreeThrough 2 samplePairs sampleRevised none none := by
    refine .of_undeclared fun pair hpair => ?_
    have hperm : (samplePairs.filter (·.session ≤ 2)).Perm
        (sampleRevised.filter (·.session ≤ 2)) := by decide +kernel
    simpa [hpair] using hperm.mem_iff (a := pair)
  have hroster : report.sessionRoster = [1, 2, 3] := by
    obtain ⟨-, rfl⟩ := validityStatistics_ok hrun
    decide +kernel
  obtain ⟨entry, hentry⟩ : ∃ entry, report.rolling.getLast? = some entry := by
    rw [← Option.isSome_iff_exists, getLast?_isSome]
    obtain ⟨-, rfl⟩ := validityStatistics_ok hrun
    have hsessions : rosterOf samplePairs none ≠ [] := by decide +kernel
    exact rolling_ne_nil hsessions
  refine ⟨report, report', entry, hrun, hrun', hthrough _ _ _ _ _ _ 2 hrun hrun' hagree,
    hperm _ _ none (reverse_perm _).symm, hentry,
    hfull _ _ _ _ hrun ?_ hentry⟩
  rw [hroster]
  decide

end MarketRegimeAlpha.ResearchQualification
