/-
The factors of a history fed session by session are those of the whole history.

# The run

The sessions of a calendar come one after the other, each with a point of every
instrument (`Fed`). After `k` of them the state is the last 21 sessions and the
last 21 points of each instrument (`runSessions_ok`): one session keeps that
(`append_ok`), because what is kept of what was kept and a new entry is what is
kept of all.

# The factors

No factor looks further back than 21 sessions, so a factor of the state is that of
the history to the session (`definedFactor_rtake`), for the peers too: each member
of the population is cut alike.
-/
import MarketRegimeAlpha.ResearchQualification.Proofs.FactorLaws

namespace MarketRegimeAlpha.ResearchQualification.HistoricalFeatures

open Lib List

-- ==== the feeds

section Feeds

variable {K : Type _} [Field K] [LinearOrder K]

def pointsAt (k : Nat) (full : Population K) : List (Nat × HistoricalDailyPoint K) :=
  full.filterMap fun member => member.2[k]?.map fun point => (member.1, point)

/-- The instruments with their points of the first `k` sessions. -/
def historyTo (k : Nat) (full : Population K) : Population K :=
  full.map fun member => (member.1, member.2.take k)

def lastPoints (population : Population K) : Population K :=
  population.map fun member => (member.1, member.2.rtake 21)

/-- A calendar, the points of every instrument on it, of one at least, and the
points of each session in some order. -/
structure Fed (calendar : List Int) (full : Population K)
    (feeds : List (List (Nat × HistoricalDailyPoint K))) : Prop where
  increasing : calendar.Pairwise (· < ·)
  aligned : ∀ member ∈ full, member.2.map (·.sessionDate) = calendar
  nodup : (full.map (·.1)).Nodup
  nonempty : full ≠ []
  length : feeds.length = calendar.length
  points : ∀ k, ∀ feed ∈ feeds[k]?, List.Perm feed (pointsAt k full)

variable (A : FactorArithmetic K)

/-- The state of some instruments after some sessions. -/
def runSessions (members : List Nat) (feeds : List (List (Nat × HistoricalDailyPoint K))) :
    Except Raised (List Int × Population K) :=
  feeds.foldlM (fun state feed => appendHistoricalSession A state.1 state.2 feed)
    ([], members.map fun instrument => (instrument, []))

theorem calculateHistoricalFeatures_ok {sessions : List Int}
    {population : Population K} (hne : sessions ≠ []) (hlength : sessions.length ≤ 21)
    (hsorted : sessions.Pairwise (· < ·))
    (hdates : ∀ member ∈ population, member.2.map (·.sessionDate) = sessions) :
    calculateHistoricalFeatures A sessions population
      = .ok (population.map fun member => (member.1, featuresOf A population member)) := by
  unfold calculateHistoricalFeatures
  rw [require_true ⟨hne, hlength, (sortedDistinct_of_pairwise hsorted).symm⟩, require_true hdates]
  rfl

end Feeds

-- ==== the run

section Run

variable {K : Type _} [Field K] [LinearOrder K] {calendar : List Int} {full : Population K}
  {feeds : List (List (Nat × HistoricalDailyPoint K))} {k : Nat} {day : Int}

theorem Fed.point (h : Fed calendar full feeds) (hk : k < calendar.length)
    {member : Nat × List (HistoricalDailyPoint K)} (hmember : member ∈ full) :
    ∃ point, member.2[k]? = some point ∧ calendar[k]? = some point.sessionDate := by
  have hdates := congrArg (·[k]?) (h.aligned member hmember)
  have hlength := congrArg List.length (h.aligned member hmember)
  rw [length_map] at hlength
  have hpoint := getElem?_eq_getElem (by omega : k < member.2.length)
  refine ⟨_, hpoint, ?_⟩
  rw [← hdates, getElem?_map, hpoint]
  rfl

theorem mem_pointsAt {instrument : Nat} {point : HistoricalDailyPoint K} :
    (instrument, point) ∈ pointsAt k full
      ↔ ∃ member ∈ full, member.1 = instrument ∧ member.2[k]? = some point := by
  unfold pointsAt
  rw [mem_filterMap]
  apply exists_congr
  intro member
  rw [Option.map_eq_some_iff]
  constructor
  · rintro ⟨hmember, p, hp, heq⟩
    cases heq
    exact ⟨hmember, rfl, hp⟩
  · rintro ⟨hmember, rfl, hp⟩
    exact ⟨hmember, point, hp, rfl⟩

theorem Fed.instruments (h : Fed calendar full feeds) (hk : k < calendar.length) :
    (pointsAt k full).map (·.1) = full.map (·.1) := by
  unfold pointsAt
  rw [map_filterMap, ← filterMap_eq_map]
  apply filterMap_congr
  intro member hmember
  obtain ⟨point, hpoint, -⟩ := h.point hk hmember
  rw [hpoint]
  rfl

theorem Fed.feed (h : Fed calendar full feeds) (hk : k < calendar.length)
    {feed : List (Nat × HistoricalDailyPoint K)} (hfeed : feed.Perm (pointsAt k full)) :
    (feed.map (·.1)).Perm (full.map (·.1))
      ∧ ∀ next ∈ feed, calendar[k]? = some next.2.sessionDate := by
  constructor
  · rw [← h.instruments hk]
    exact hfeed.map _
  · intro next hnext
    obtain ⟨member, hmember, -, hpoint⟩ := mem_pointsAt.mp (hfeed.mem_iff.mp hnext)
    obtain ⟨point, hpoint', hday⟩ := h.point hk hmember
    rw [hpoint] at hpoint'
    injection hpoint' with heq
    rw [hday, heq]

theorem sortedDistinct_singleton {l : List Int} (hl : l ≠ [])
    (hall : ∀ x ∈ l, x = day) : sortedDistinct l = [day] := by
  have hmem : ∀ x, x ∈ l ↔ x ∈ [day] := by
    intro x
    rw [mem_singleton]
    constructor
    · exact hall x
    · rintro rfl
      obtain ⟨y, hy⟩ := exists_mem_of_ne_nil l hl
      exact hall y hy ▸ hy
  rw [sortedDistinct_congr hmem]
  exact sortedDistinct_of_pairwise (pairwise_singleton _ _)

theorem Fed.later (h : Fed calendar full feeds) (hday : calendar[k]? = some day) :
    ∀ last ∈ ((calendar.take k).rtake 21).getLast?, last < day := by
  intro last hlast
  have htake : calendar.take (k + 1) = calendar.take k ++ [day] := by
    rw [take_add_one, hday]
    rfl
  have hsorted : (calendar.take k ++ [day]).Pairwise (· < ·) := by
    rw [← htake]
    exact h.increasing.sublist (take_sublist _ _)
  have hmem := (rtake_sublist 21 (calendar.take k)).subset (mem_of_getLast? hlast)
  exact (pairwise_append.mp hsorted).2.2 last hmem day (mem_singleton_self _)

theorem Fed.lastDates (h : Fed calendar full feeds) (k : Nat) :
    ∀ member ∈ lastPoints (historyTo k full),
      member.2.map (·.sessionDate) = (calendar.take k).rtake 21 := by
  intro member hmember
  unfold lastPoints historyTo at hmember
  rw [map_map, mem_map] at hmember
  obtain ⟨whole, hwhole, rfl⟩ := hmember
  show ((whole.2.take k).rtake 21).map _ = _
  rw [map_rtake, map_take, h.aligned whole hwhole]

theorem Fed.calculate (h : Fed calendar full feeds) (A : FactorArithmetic K)
    (hk : k ≤ calendar.length) (hpos : k ≠ 0) :
    calculateHistoricalFeatures A ((calendar.take k).rtake 21) (lastPoints (historyTo k full))
      = .ok ((lastPoints (historyTo k full)).map fun member =>
          (member.1, featuresOf A (lastPoints (historyTo k full)) member)) := by
  have hlength : ((calendar.take k).rtake 21).length = min 21 k := by
    rw [length_rtake, length_take, min_eq_left hk]
  apply calculateHistoricalFeatures_ok
  · apply ne_nil_of_length_pos
    omega
  · omega
  · exact h.increasing.sublist ((rtake_sublist 21 _).trans (take_sublist k calendar))
  · exact h.lastDates k

section Session

variable (h : Fed calendar full feeds) (hk : k < calendar.length)
  {feed : List (Nat × HistoricalDailyPoint K)} (hfeed : feed.Perm (pointsAt k full))

include h hk hfeed

theorem Fed.feed_ne_nil : feed ≠ [] := by
  rintro rfl
  have hinstruments := (h.feed hk hfeed).1
  exact h.nonempty (map_eq_nil_iff.mp hinstruments.symm.eq_nil)

theorem Fed.dates {day : Int} (hday : calendar[k]? = some day) :
    sortedDistinct (feed.map (·.2.sessionDate)) = [day] := by
  apply sortedDistinct_singleton
  · intro hnil
    exact h.feed_ne_nil hk hfeed (map_eq_nil_iff.mp hnil)
  · intro x hx
    obtain ⟨next, hnext, rfl⟩ := mem_map.mp hx
    have hnextDay := (h.feed hk hfeed).2 next hnext
    rw [hday] at hnextDay
    injection hnextDay with heq
    exact heq.symm

theorem Fed.unchanged : feed ≠ []
    ∧ (∀ member ∈ lastPoints (historyTo k full), member.1 ∈ feed.map (·.1))
    ∧ ∀ next ∈ feed, next.1 ∈ (lastPoints (historyTo k full)).map (·.1) := by
  have hinstruments := (h.feed hk hfeed).1
  have hkeys : (lastPoints (historyTo k full)).map (·.1) = full.map (·.1) := by
    unfold lastPoints historyTo
    rw [map_map, map_map]
    rfl
  rw [hkeys]
  refine ⟨h.feed_ne_nil hk hfeed, fun member hmember => ?_, fun next hnext => ?_⟩
  · rw [hinstruments.mem_iff, ← hkeys]
    exact mem_map_of_mem hmember
  · rw [← hinstruments.mem_iff]
    exact mem_map_of_mem hnext

theorem Fed.nextPoints : (lastPoints (historyTo k full)).mapM (fun member => do
      let next ← item feed member.1
      return (member.1, (member.2 ++ [next]).rtake 21))
    = (.ok (lastPoints (historyTo (k + 1) full)) : Except Raised _) := by
  unfold lastPoints historyTo
  rw [map_map, map_map, mapM_map]
  apply mapM_ok_map
  intro member hmember
  obtain ⟨point, hpoint, -⟩ := h.point hk hmember
  have hnext : (member.1, point) ∈ feed :=
    hfeed.mem_iff.mpr (mem_pointsAt.mpr ⟨member, hmember, rfl, hpoint⟩)
  have hnodup := (h.feed hk hfeed).1.nodup_iff.mpr h.nodup
  show (item feed member.1 >>= fun next => _) = _
  rw [item_of_mem hnodup hnext, ok_bind]
  show Except.ok (member.1, ((member.2.take k).rtake 21 ++ [point]).rtake 21)
    = Except.ok (member.1, (member.2.take (k + 1)).rtake 21)
  rw [rtake_keep, take_add_one, hpoint]
  rfl

theorem Fed.append_ok (A : FactorArithmetic K) :
    appendHistoricalSession A ((calendar.take k).rtake 21) (lastPoints (historyTo k full)) feed
      = .ok ((calendar.take (k + 1)).rtake 21, lastPoints (historyTo (k + 1) full)) := by
  obtain ⟨day, hday⟩ : ∃ day, calendar[k]? = some day := ⟨_, getElem?_eq_getElem hk⟩
  have hsessions : ((calendar.take k).rtake 21 ++ [day]).rtake 21
      = (calendar.take (k + 1)).rtake 21 := by
    rw [rtake_keep, take_add_one, hday]
    rfl
  unfold appendHistoricalSession
  rw [require_true (h.unchanged hk hfeed), ok_bind]
  dsimp only
  rw [h.dates hk hfeed hday, require_true ⟨rfl, h.later hday⟩, ok_bind]
  rw [h.nextPoints hk hfeed, ok_bind]
  dsimp only [headD_cons]
  rw [hsessions, h.calculate A hk (Nat.succ_ne_zero k)]
  rfl

end Session

/-- The state after `k` sessions, which no session fails to reach. -/
theorem Fed.runSessions_ok (h : Fed calendar full feeds) (A : FactorArithmetic K)
    (hk : k ≤ calendar.length) :
    runSessions A (full.map (·.1)) (feeds.take k)
      = .ok ((calendar.take k).rtake 21, lastPoints (historyTo k full)) := by
  induction k with
  | zero =>
    unfold runSessions lastPoints historyTo
    rw [map_map, map_map]
    rfl
  | succ k ih =>
    have hfeed : k < feeds.length := by
      rw [h.length]
      omega
    have htake : feeds.take (k + 1) = feeds.take k ++ [feeds[k]] :=
      (take_append_getElem hfeed).symm
    have hperm := h.points k feeds[k] (getElem?_eq_getElem hfeed)
    unfold runSessions at ih ⊢
    rw [htake, foldlM_append, ih (by omega), ok_bind, foldlM_cons]
    rw [h.append_ok hk hperm A]
    rfl

end Run

-- ==== the factors

section Bounded

variable (population : Population ℝ) (history : List (HistoricalDailyPoint ℝ)) {n : Nat}

theorem intradayReturn_rtake : intradayReturn (history.rtake 21) = intradayReturn history := by
  unfold intradayReturn
  rw [getLast?_rtake (by decide)]

theorem periodReturn_rtake (hn : n ≤ 20) :
    periodReturn (history.rtake 21) n = periodReturn history n := by
  unfold periodReturn
  rw [map_rtake, completeWindow_rtake (by omega)]

theorem volatility_rtake (hn : n ≤ 20) :
    volatility (history.rtake 21) n = volatility history n := by
  unfold volatility
  rw [map_rtake, completeWindow_rtake (by omega)]

theorem meanRatio_rtake (quantity : HistoricalDailyPoint ℝ → Option ℝ) :
    meanRatio ((history.rtake 21).map quantity) = meanRatio (history.map quantity) := by
  unfold meanRatio
  rw [map_rtake, completeWindow_rtake (by decide)]

theorem peerReturns_lastPoints (hn : n ≤ 20) :
    peerReturns (lastPoints population) n = peerReturns population n := by
  unfold peerReturns lastPoints
  rw [filterMap_map]
  apply filterMap_congr
  intro member _
  exact periodReturn_rtake member.2 hn

theorem definedFactor_rtake (name : String) :
    definedFactor (lastPoints population) (history.rtake 21) name
      = definedFactor population history name := by
  unfold definedFactor peerRelative crossSection
  rw [intradayReturn_rtake, periodReturn_rtake history (by decide),
    periodReturn_rtake history (by decide), periodReturn_rtake history le_rfl,
    volatility_rtake history le_rfl, meanRatio_rtake, meanRatio_rtake,
    peerReturns_lastPoints population (by decide),
    peerReturns_lastPoints population le_rfl]

end Bounded

def featureValues {K : Type _} (features : Features K) : List (Nat × List (String × Option K)) :=
  features.map fun member => (member.1, member.2.map fun cell => (cell.1, cell.2.value))

variable (quantize : ℝ → ℝ)

/-- The factors of a population by their definitions. -/
noncomputable def definedFeatures (population : Population ℝ) :
    List (Nat × List (String × Option ℝ)) :=
  population.map fun member => (member.1, factors.map fun factor =>
    (factor.name, (definedFactor population member.2 factor.name).map quantize))

theorem featureValues_lastPoints (population : Population ℝ) :
    featureValues ((lastPoints population).map fun member =>
        (member.1, featuresOf (exactFactors quantize) (lastPoints population) member))
      = definedFeatures quantize population := by
  unfold featureValues featuresOf definedFeatures
  nth_rewrite 2 [lastPoints]
  rw [map_map, map_map]
  apply map_congr_left
  intro member hmember
  have hlast : (member.1, member.2.rtake 21) ∈ lastPoints population := mem_map_of_mem hmember
  simp only [Function.comp_apply, map_map]
  congr 1
  apply map_congr_left
  intro factor hfactor
  rw [Function.comp_apply, factorCell_value quantize hlast hfactor, definedFactor_rtake]

/-- Fed with the sessions of a history, the state of an exact arithmetic is never
refused, is the last 21 sessions and points of those so far, and has the factors of
all of them by definition; the factors of adjusted prices do not know the scale of
an instrument; and of two complete peers or more, the ranks lie between zero and one
around one half and the unrounded deviations sum to zero. -/
theorem incremental_features (quantize : ℝ → ℝ) : (∀ (calendar : List Int) (full : Population ℝ)
        (feeds : List (List (Nat × HistoricalDailyPoint ℝ))),
      Fed calendar full feeds → ∀ k ≤ calendar.length,
        runSessions (exactFactors quantize) (full.map (·.1)) (feeds.take k)
            = .ok ((calendar.take k).rtake 21, lastPoints (historyTo k full))
          ∧ (k ≠ 0 → ∃ features, calculateHistoricalFeatures (exactFactors quantize)
                ((calendar.take k).rtake 21) (lastPoints (historyTo k full))
              = .ok features
            ∧ featureValues features = definedFeatures quantize (historyTo k full)))
      ∧ (∀ (c : Nat → Scale) (sessions : List Int) (population : Population ℝ),
        (calculateHistoricalFeatures (exactFactors quantize) sessions
            (scaled c population)).map adjustedCells
          = (calculateHistoricalFeatures (exactFactors quantize) sessions
              population).map adjustedCells)
      ∧ ∀ (population : Population ℝ), ∀ factor ∈ factors, factor.group = .relative →
        2 ≤ (validReturns (exactFactors quantize) (peerSessions factor) population).length →
        (unroundedValues (exactFactors quantize) factor population).length
            = (validReturns (exactFactors quantize) (peerSessions factor) population).length
          ∧ (factor.name = "cross_section_5" →
            (∀ value ∈ unroundedValues (exactFactors quantize) factor population,
              0 ≤ value ∧ value ≤ 1)
            ∧ average (unroundedValues (exactFactors quantize) factor population) = 1 / 2)
          ∧ (factor.name ≠ "cross_section_5" →
            (unroundedValues (exactFactors quantize) factor population).sum = 0) := by
  have hnames : ∀ factor ∈ factors, factor.group = .relative →
      (factor.name = "cross_section_5" → startsWith factor.name "peer_relative" = false)
      ∧ (factor.name ≠ "cross_section_5" → startsWith factor.name "peer_relative" = true) := by
    decide
  refine ⟨fun calendar full feeds hfed k hk => ?_, fun c sessions population =>
      calculateHistoricalFeatures_scaled quantize c population sessions,
    fun population factor hfactor hgroup hpeers => ?_⟩
  · refine ⟨hfed.runSessions_ok (exactFactors quantize) hk, fun hpos => ?_⟩
    exact ⟨_, hfed.calculate (exactFactors quantize) hk hpos,
      featureValues_lastPoints quantize (historyTo k full)⟩
  · obtain ⟨hcross, hrelative⟩ := hnames factor hfactor hgroup
    obtain ⟨hlength, hsum, hranks⟩ := peers_together quantize rfl hpeers
    exact ⟨hlength, fun hname => hranks (hcross hname), fun hname => hsum (hrelative hname)⟩

/-- A day of constant prices. -/
noncomputable def constantPoint (day : Int) : HistoricalDailyPoint ℝ where
  sessionDate := day
  rawOpen := some 1
  rawClose := some 1
  adjustedClose := some 1
  volume := none
  amount := none
  priced := by
    refine ⟨?_, ?_, ?_⟩
    all_goals
      intro value hvalue
      cases hvalue
      exact one_pos
  counted := ⟨nofun, nofun⟩

/-- Six sessions of two instruments. -/
noncomputable def constantFull : Population ℝ :=
  [(1, [1, 2, 3, 4, 5, 6].map constantPoint), (2, [1, 2, 3, 4, 5, 6].map constantPoint)]

noncomputable def constantFeeds : List (List (Nat × HistoricalDailyPoint ℝ)) :=
  (List.range 6).map fun k => pointsAt k constantFull

theorem fed_constant : Fed [1, 2, 3, 4, 5, 6] constantFull constantFeeds where
  increasing := by decide
  aligned := by
    intro member hmember
    simp only [constantFull, mem_cons, not_mem_nil, or_false] at hmember
    rcases hmember with rfl | rfl
    · rfl
    · rfl
  nodup := by decide
  nonempty := nofun
  length := rfl
  points := by
    intro k feed hfeed
    unfold constantFeeds at hfeed
    rw [getElem?_map] at hfeed
    obtain ⟨j, hj, rfl⟩ := Option.map_eq_some_iff.mp hfeed
    obtain ⟨_, hvalue⟩ := List.getElem?_eq_some_iff.mp hj
    rw [getElem_range] at hvalue
    rw [hvalue]

theorem validReturns_constant : 2 ≤ (validReturns (exactFactors id) 5 constantFull).length := by
  exact le_of_eq rfl

/-- Constant prices rank in the middle. -/
theorem incremental_features_constant :
    (∃ state, runSessions (exactFactors id) (constantFull.map (·.1))
        (constantFeeds.take 6) = .ok state
      ∧ state.1 = [1, 2, 3, 4, 5, 6])
      ∧ average (unroundedValues (exactFactors id)
        ⟨"cross_section_5", 5, .relative, "BACKWARD_ADJUSTED"⟩ constantFull) = 1 / 2 := by
  obtain ⟨hrun, -, htogether⟩ := incremental_features id
  obtain ⟨hstate, -⟩ := hrun _ constantFull constantFeeds fed_constant 6 le_rfl
  obtain ⟨-, hcross, -⟩ := htogether constantFull
    ⟨"cross_section_5", 5, .relative, "BACKWARD_ADJUSTED"⟩ (by decide) rfl
    validReturns_constant
  exact ⟨⟨_, hstate, rfl⟩, (hcross rfl).2⟩

/-- The empty population is refused its first session. -/
theorem empty_population_refused : ([1] : List Int).Pairwise (· < ·)
      ∧ (∀ member ∈ ([] : Population ℚ), member.2.map (·.sessionDate) = [1])
      ∧ runSessions factorContext [] [pointsAt 0 ([] : Population ℚ)] = .error (.valueError
          "incremental factors require an unchanged explicit population") :=
  ⟨by decide, nofun, rfl⟩

end MarketRegimeAlpha.ResearchQualification.HistoricalFeatures
