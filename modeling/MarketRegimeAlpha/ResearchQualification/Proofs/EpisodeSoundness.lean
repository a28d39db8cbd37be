/-
What an accepted path is.

`EpisodesSound` says it: the accounts of every closed episode, the trades
of idle legs, the intervals of an arm, the place of every leg, and the
independence of the order. Every field follows from the run over the
ordered groups (`visits_ok`): an episode is that of its group, and the
groups have the legs, each once.
-/
import Mathlib
import MarketRegimeAlpha.ResearchQualification.Proofs.EpisodePath

namespace MarketRegimeAlpha.ResearchQualification

open Lib List

variable {policy : EpisodePolicy} {legs : List EpisodeLeg} {episodes : List EpisodeResult}

structure EpisodesSound (policy : EpisodePolicy) (legs : List EpisodeLeg)
    (episodes : List EpisodeResult) : Prop where
  accounts : ∀ e ∈ episodes, e.reason = .episodeClosed → ExactAmounts policy e.legs →
      ∃ cash final buy sell fees, Accounted e cash final buy sell fees
  trades : ∀ e ∈ episodes, e.reason = .episodeClosed →
    e.legs.map (·.observationId) = e.observationIds
  idle : ∀ e ∈ episodes, e.reason = .episodeClosed → ∀ leg ∈ legs,
    leg.idle → ∀ t ∈ e.legs, t.observationId = leg.observationId → t = .none leg.observationId
  idle_any : ∀ legs', List.Forall₂ EpisodeLeg.Alike legs legs' →
    buildEpisodePath policy legs' = .ok episodes
  apart : ∀ a ∈ legs, ∀ b ∈ legs, a.armKey = b.armKey → a.episodeKey ≠ b.episodeKey →
      Disjoint (Set.Ico a.entryTime a.exitTime) (Set.Ico b.entryTime b.exitTime)
  roster : (episodes.flatMap (·.observationIds)).Perm (legs.map (·.observationId))
  member : ∀ leg ∈ legs, ∃! e, e ∈ episodes ∧ leg.observationId ∈ e.observationIds
  order : ∀ legs', legs.Perm legs' →
    (ExactWeights policy legs → buildEpisodePath policy legs' = .ok episodes)
      ∧ ∀ episodes', buildEpisodePath policy legs' = .ok episodes' → episodes' = episodes

section Run

variable (hids : (legs.map (·.observationId)).Nodup)
  (hall : List.Forall₂ (EpisodeOf policy) (ordered legs) episodes)
  {g : EpisodeLeg × List EpisodeLeg} {leg : EpisodeLeg} {a b : EpisodeLeg} {e : EpisodeResult}

include hall in
theorem group_of (he : e ∈ episodes) : ∃ g ∈ ordered legs, EpisodeOf policy g e := by
  exact forall₂_right hall he

include hids in
theorem leg_eq (ha : a ∈ legs) (hb : b ∈ legs) (h : a.observationId = b.observationId) : a = b :=
  inj_on_of_nodup_map hids ha hb h

theorem mem_of_group (hg : g ∈ ordered legs) (hleg : leg ∈ g.2) :
    leg ∈ legs ∧ leg.episodeKey = g.1.episodeKey := by
  rw [(group_spec (mem_ordered.mp hg)).2] at hleg
  exact mem_roster.mp hleg

theorem EpisodeOf.mem_observations (h : EpisodeOf policy g e) {id : Nat} :
    id ∈ e.observationIds ↔ ∃ leg ∈ g.2, leg.observationId = id := by
  rw [h.closed.observations, mem_map]
  simp only [(sortBy_perm EpisodeLeg.instrumentId g.2).mem_iff]

include hids hall in
theorem leg_episode (hleg : leg ∈ legs) :
    ∃! e, e ∈ episodes ∧ leg.observationId ∈ e.observationIds := by
  obtain ⟨g, hg, hmem, hkey⟩ := mem_group hleg
  obtain ⟨e, he, hof⟩ := forall₂_left hall hg
  refine ⟨e, ⟨he, hof.mem_observations.mpr ⟨leg, hmem, rfl⟩⟩, ?_⟩
  rintro e' ⟨he', hin⟩
  obtain ⟨g', hg', hof'⟩ := group_of hall he'
  obtain ⟨leg', hmem', hid⟩ := hof'.mem_observations.mp hin
  obtain ⟨hleg', hkey'⟩ := mem_of_group hg' hmem'
  -- both episodes have the key of the leg
  obtain rfl := leg_eq hids hleg' hleg hid
  have hkeys : episodes.map (·.episodeKey) = (ordered legs).map (·.1.episodeKey) :=
    (map_forall₂ hall fun g e hof => hof.closed.key.symm).symm
  have hnodup : (episodes.map (·.episodeKey)).Nodup := hkeys ▸ ordered_nodup
  apply inj_on_of_nodup_map hnodup he' he
  rw [hof.closed.key, hof'.closed.key, hkey, ← hkey']

include hall in
theorem observations_perm : (episodes.flatMap (·.observationIds)).Perm
      (legs.map (·.observationId)) := by
  have hgroups : ((ordered legs).flatMap (·.2)).Perm legs :=
    ((sortBy_perm orderKey (groups legs)).flatMap_right _).trans groups_perm
  refine List.Perm.trans ?_ (hgroups.map _)
  rw [map_flatMap]
  clear hgroups
  generalize ordered legs = gs at hall
  induction hall with
  | nil => exact .nil
  | @cons g e gs es hof _ ih =>
    rw [flatMap_cons, flatMap_cons, hof.closed.observations]
    exact ((sortBy_perm EpisodeLeg.instrumentId g.2).map _).append ih

include hall in
theorem legs_apart (happart : (ordered legs).Pairwise Apart) (ha : a ∈ legs) (hb : b ∈ legs)
    (harm : a.armKey = b.armKey) (hkey : a.episodeKey ≠ b.episodeKey) :
    Disjoint (Set.Ico a.entryTime a.exitTime) (Set.Ico b.entryTime b.exitTime) := by
  have hshape : ∀ leg ∈ legs, ∃ g ∈ ordered legs,
      g.1.episodeKey = leg.episodeKey ∧ leg.shape = g.1.shape := by
    intro leg hleg
    obtain ⟨g, hg, hmem, hgkey⟩ := mem_group hleg
    obtain ⟨e, -, hof⟩ := forall₂_left hall hg
    exact ⟨g, hg, hgkey, hof.uniform.shape leg hmem⟩
  obtain ⟨g, hg, hgkey, hga⟩ := hshape a ha
  obtain ⟨g', hg', hgkey', hgb⟩ := hshape b hb
  simp only [EpisodeLeg.shape, Prod.mk.injEq] at hga hgb
  obtain ⟨harma, -, -, hentrya, hexita⟩ := hga
  obtain ⟨harmb, -, -, hentryb, hexitb⟩ := hgb
  have hne : g ≠ g' := fun heq => hkey (by rw [← hgkey, ← hgkey', heq])
  -- one of the two groups is visited first
  have heither : Apart g g' ∨ Apart g' g := by
    have heither : (ordered legs).Pairwise fun g g' => Apart g g' ∨ Apart g' g := happart.imp .inl
    have hsymm : Std.Symm fun g g' => Apart g g' ∨ Apart g' g := ⟨fun _ _ => Or.symm⟩
    exact heither.forall hg hg' hne
  rw [Set.Ico_disjoint_Ico, hentrya, hexita, hentryb, hexitb]
  rw [harma, harmb] at harm
  rcases heither with hbefore | hbefore
  · exact (min_le_left _ _).trans ((hbefore harm).trans (le_max_right _ _))
  · exact (min_le_right _ _).trans ((hbefore harm.symm).trans (le_max_left _ _))

end Run

/-- What a path returns is sound. -/
theorem episode_path_sound (h : buildEpisodePath policy legs = .ok episodes) :
    EpisodesSound policy legs episodes := by
  obtain ⟨⟨-, hids⟩, ends, hrun⟩ := buildEpisodePath_ok h
  obtain ⟨⟨es, hes, hall⟩, happart, -⟩ := visits_ok hrun
  obtain rfl : episodes = es := by simpa using hes
  constructor
  case accounts =>
    intro e he hclosed hexact
    obtain ⟨g, hg, hof⟩ := group_of hall he
    exact hof.closed.accounts hclosed hexact
  case trades =>
    intro e he hclosed
    obtain ⟨g, hg, hof⟩ := group_of hall he
    rw [hof.closed.observations]
    exact (map_forall₂ (hof.closed.trades hclosed)
      fun leg t htraded => htraded.observation.symm).symm
  case idle =>
    intro e he hclosed leg hleg hidle t ht hid
    obtain ⟨g, hg, hof⟩ := group_of hall he
    obtain ⟨leg', hleg', htraded⟩ := forall₂_right (hof.closed.trades hclosed) ht
    rw [(sortBy_perm EpisodeLeg.instrumentId g.2).mem_iff] at hleg'
    have hsame : leg' = leg := leg_eq hids (mem_of_group hg hleg').1 hleg
      (htraded.observation.symm.trans hid)
    subst hsame
    exact htraded.idle hidle
  case idle_any => exact fun legs' halike => (path_alike halike).symm.trans h
  case apart => exact fun a ha b hb => legs_apart hall happart ha hb
  case roster => exact observations_perm hall
  case member => exact fun leg hleg => leg_episode hids hall hleg
  case order =>
    intro legs' hperm
    obtain ⟨hexact, hcases⟩ := path_perm h hperm
    refine ⟨hexact, fun episodes' h' => ?_⟩
    rcases hcases with hok | herr
    · exact Except.ok.inj (h'.symm.trans hok)
    · exact nomatch h'.symm.trans herr

-- ==== a sample

theorem thousand_pos : (0 : ℚ) < 1000 := by
  decide +kernel

def samplePolicy : EpisodePolicy where
  initialCapital := 1000
  buyFeeBps := 10
  sellFeeBps := 20
  decimalPrecision := 34
  precision_bounds := by decide
  fees_nonneg := by decide +kernel
  capital_pos := thousand_pos
  capital_cents := by decide +kernel

def sampleLeg (observationId instrumentId : Nat) (riskStatus : RiskStatus) : EpisodeLeg where
  observationId
  instrumentId
  episodeKey := "episode"
  armKey := "arm"
  foldKey := "fold"
  decisionTime := 1
  entryTime := 2
  exitTime := 5
  knowledgeCutoff := 6
  outcomeKnownAt := 6
  proposedWeight := 1 / 2
  riskStatus
  entryPrice := some 10
  exitPrice := some 12
  priceBasis := "RAW_UNADJUSTED"
  availability := "AVAILABLE"
  times := by decide
  weight_fraction := by decide +kernel
  prices_pos := by decide +kernel

def sampleLegs : List EpisodeLeg := [sampleLeg 1 2 .authorized, sampleLeg 2 1 .rejected]

def sampleEpisode : EpisodeResult where
  episodeKey := "episode"
  observationIds := [2, 1]
  reason := .episodeClosed
  initialCash := 1000
  cashAfterEntry := some (4995 / 10)
  entryHoldings := some 500
  finalCash := some (10983 / 10)
  finalUnits := some 0
  buyNotional := some 500
  sellNotional := some 600
  fees := some (17 / 10)
  grossReturn := some (1 / 10)
  netReturn := some (983 / 10000)
  legs := [.none 2, {
    observationId := 1, units := 50, buyNotional := 500, sellNotional := 600
    buyFee := 1 / 2, sellFee := 12 / 10, grossProfit := 100
    netProfit := 983 / 10 }]

theorem sampleEpisode_exact : ExactAmounts samplePolicy sampleEpisode.legs := by
  constructor <;> decide +kernel

/-- A path whose one episode is closed, whose amounts and weights do not
round. -/
theorem episode_path_sound_sample : EpisodesSound samplePolicy sampleLegs [sampleEpisode]
      ∧ sampleEpisode.reason = .episodeClosed
      ∧ ExactAmounts samplePolicy sampleEpisode.legs
      ∧ ExactWeights samplePolicy sampleLegs := by
  refine ⟨episode_path_sound (by decide +kernel), rfl, sampleEpisode_exact, ?_⟩
  have hall : ∀ leg ∈ sampleLegs, ∀ order ∈ ((roster sampleLegs leg.episodeKey).map
        (·.proposedWeight)).permutations',
      ExactSum samplePolicy.decimalPrecision order := by decide +kernel
  intro leg hleg order horder
  exact hall leg hleg order (mem_permutations'.mpr horder)

end MarketRegimeAlpha.ResearchQualification
