/-
The episodes of a path.

# The groups

The group of a key is its `roster`, the legs with the key in order, and
the groups of permuted legs are the same up to the order of each roster.
So the ordered groups of one roster and of a permuted one have the same
keys at the same places (`ordered_keys_eq`), and the loop takes both to
the same episodes, unless the sum of the weights rounds one way in one
order and another way in the other (`visit_perm`).
-/
import Mathlib.Data.List.Pairwise
import Mathlib.Order.Interval.Set.Disjoint
import MarketRegimeAlpha.ResearchQualification.Proofs.EpisodeClosing

namespace MarketRegimeAlpha.ResearchQualification

open Lib List

variable {policy : EpisodePolicy} {legs legs' : List EpisodeLeg} {leg : EpisodeLeg}

-- ==== the groups

def roster (legs : List EpisodeLeg) (episodeKey : String) : List EpisodeLeg :=
  legs.filter (·.episodeKey = episodeKey)

theorem mem_roster {k : String} : leg ∈ roster legs k ↔ leg ∈ legs ∧ leg.episodeKey = k := by
  simp [roster]

theorem groups_eq : groups legs = (firsts (legs.map (·.episodeKey))).filterMap fun k =>
      (roster legs k).head?.map fun first => (first, roster legs k) := by
  unfold groups
  rw [groupBy_eq, filterMap_map]
  rfl

theorem group_spec {g : EpisodeLeg × List EpisodeLeg} (hg : g ∈ groups legs) :
    g.1 ∈ g.2 ∧ g.2 = roster legs g.1.episodeKey := by
  rw [groups_eq, mem_filterMap] at hg
  obtain ⟨k, -, hk⟩ := hg
  obtain ⟨first, hfirst, rfl⟩ := Option.map_eq_some_iff.mp hk
  have hmem : first ∈ roster legs k := mem_of_head? hfirst
  refine ⟨hmem, ?_⟩
  rw [(mem_roster.mp hmem).2]

theorem groups_map {α : Type _} {f : EpisodeLeg × List EpisodeLeg → α} {g : String → α}
    (h : ∀ k first, first ∈ roster legs k → f (first, roster legs k) = g k) :
    (groups legs).map f = (firsts (legs.map (·.episodeKey))).map g := by
  rw [groups_eq]
  have hall : ∀ k ∈ firsts (legs.map (·.episodeKey)), roster legs k ≠ [] := by
    intro k hk
    obtain ⟨leg, hleg, rfl⟩ := mem_map.mp (mem_firsts.mp hk)
    exact ne_nil_of_mem (mem_roster.mpr ⟨hleg, rfl⟩)
  generalize firsts (legs.map (·.episodeKey)) = ks at hall
  induction ks with
  | nil => rfl
  | cons k ks ih =>
    obtain ⟨first, rest, hroster⟩ := exists_cons_of_ne_nil (hall k mem_cons_self)
    have hfirst : first ∈ roster legs k := hroster ▸ mem_cons_self
    have hhead : (roster legs k).head? = some first := by
      rw [hroster]
      rfl
    rw [filterMap_cons, hhead]
    simp only [Option.map_some, map_cons]
    rw [h k first hfirst, ih fun k' hk' => hall k' (mem_cons_of_mem k hk')]

theorem groups_keys : (groups legs).map (·.1.episodeKey) = firsts (legs.map (·.episodeKey)) := by
  rw [groups_map (g := id) fun k first hfirst => (mem_roster.mp hfirst).2, map_id]

theorem groups_perm : ((groups legs).flatMap (·.2)).Perm legs := by
  have hrosters : (groups legs).map (·.2) = (firsts (legs.map (·.episodeKey))).map (roster legs) :=
    groups_map fun _ _ _ => rfl
  rw [flatMap_def, hrosters, ← flatMap_def]
  exact flatMap_filter_perm EpisodeLeg.episodeKey (nodup_firsts _)
    fun leg hleg => mem_firsts.mpr (mem_map_of_mem hleg)

-- ==== the ordered groups

def orderKey (group : EpisodeLeg × List EpisodeLeg) : Instant ×ₗ String :=
  toLex (group.1.decisionTime, group.1.episodeKey)

/-- The groups in the order of the loop. -/
def ordered (legs : List EpisodeLeg) : List (EpisodeLeg × List EpisodeLeg) :=
  sortBy orderKey (groups legs)

theorem mem_ordered {g : EpisodeLeg × List EpisodeLeg} : g ∈ ordered legs ↔ g ∈ groups legs :=
  (sortBy_perm orderKey _).mem_iff

theorem ordered_nodup : ((ordered legs).map (·.1.episodeKey)).Nodup := by
  have hperm := (sortBy_perm orderKey (groups legs)).map (·.1.episodeKey)
  refine hperm.nodup_iff.mpr ?_
  rw [groups_keys]
  exact nodup_firsts _

def OneDecision (legs : List EpisodeLeg) : Prop :=
  ∀ a ∈ legs, ∀ b ∈ legs, a.episodeKey = b.episodeKey → a.decisionTime = b.decisionTime

theorem ordered_keys_eq (hperm : legs.Perm legs') (hone : OneDecision legs) :
    (ordered legs).map orderKey = (ordered legs').map orderKey := by
  -- the time of a key is that of the first leg with it
  let time := fun k => ((roster legs k).head?.map (·.decisionTime)).getD 0
  have htime : ∀ leg ∈ legs, leg.decisionTime = time leg.episodeKey := by
    intro leg hleg
    have hmem : leg ∈ roster legs leg.episodeKey := mem_roster.mpr ⟨hleg, rfl⟩
    obtain ⟨first, rest, hroster⟩ := exists_cons_of_ne_nil (ne_nil_of_mem hmem)
    have hfirst : first ∈ roster legs leg.episodeKey := hroster ▸ mem_cons_self
    obtain ⟨hfirst, hkey⟩ := mem_roster.mp hfirst
    show _ = ((roster legs leg.episodeKey).head?.map (·.decisionTime)).getD 0
    rw [hroster]
    exact hone leg hleg first hfirst hkey.symm
  have hkeys : ∀ {l : List EpisodeLeg}, l.Perm legs → (groups l).map orderKey
      = (firsts (l.map (·.episodeKey))).map fun k => toLex (time k, k) := by
    intro l hl
    apply groups_map
    intro k first hfirst
    obtain ⟨hin, rfl⟩ := mem_roster.mp hfirst
    unfold orderKey
    rw [htime first (hl.subset hin)]
  have hsame : ((groups legs).map orderKey).Perm ((groups legs').map orderKey) := by
    rw [hkeys (Perm.refl _), hkeys hperm.symm]
    exact (firsts_perm (hperm.map _)).map _
  exact map_sortBy_eq hsame

-- ==== the run

/-- The state of the loop: the last exit of each arm, and the episodes. -/
abbrev Visits := List (String × Instant) × List EpisodeResult

/-- What an accepted group is, apart from its weights and its time. -/
structure Uniform (first : EpisodeLeg) (group : List EpisodeLeg) : Prop where
  shape : ∀ leg ∈ group, leg.shape = first.shape
  instruments : (group.map (·.instrumentId)).Nodup

/-- The weights of a group are within the capital, as the context sums
them. -/
def Allocated (policy : EpisodePolicy) (group : List EpisodeLeg) : Prop :=
  sumContext policy.decimalPrecision (group.map (·.proposedWeight)) ≤ 1

variable {s s' : Visits} {g g' : EpisodeLeg × List EpisodeLeg} {episodes : List EpisodeResult}

theorem visitGroup_ok {first : EpisodeLeg} {group : List EpisodeLeg} :
    visitGroup policy s first group = .ok s' ↔ Uniform first group ∧ Allocated policy group
        ∧ (∀ last ∈ s.1.lookup first.armKey, last ≤ first.entryTime)
        ∧ ∃ e, closeEpisode policy first.episodeKey (sortBy (·.instrumentId) group) = .ok e
          ∧ s' = (setItem s.1 first.armKey first.exitTime, s.2 ++ [e]) := by
  simp only [visitGroup, bind_ok, require_ok, pure_ok]
  constructor
  · rintro ⟨-, hshape, -, hnodup, -, hweights, -, htime, e, he, rfl⟩
    exact ⟨⟨hshape, hnodup⟩, hweights, htime, e, he, rfl⟩
  · rintro ⟨⟨hshape, hnodup⟩, hweights, htime, e, he, rfl⟩
    exact ⟨(), hshape, (), hnodup, (), hweights, (), htime, e, he, rfl⟩

/-- One turn of the loop of `buildEpisodePath`. -/
def visit (policy : EpisodePolicy) (s : Visits)
    (g : EpisodeLeg × List EpisodeLeg) : Except EpisodeError Visits :=
  visitGroup policy s g.1 g.2

structure EpisodeOf (policy : EpisodePolicy)
    (g : EpisodeLeg × List EpisodeLeg) (e : EpisodeResult) : Prop where
  uniform : Uniform g.1 g.2
  closed : ClosedFrom policy g.1.episodeKey (sortBy (·.instrumentId) g.2) e

/-- The two groups do not share an arm, or the one leaves before the
other enters. -/
def Apart (g g' : EpisodeLeg × List EpisodeLeg) : Prop :=
  g.1.armKey = g'.1.armKey → g.1.exitTime ≤ g'.1.entryTime

/-- What an accepted run of the loop has left. -/
theorem visits_ok {gs : List (EpisodeLeg × List EpisodeLeg)}
    (h : gs.foldlM (visit policy) s = .ok s') :
    (∃ es, s'.2 = s.2 ++ es ∧ List.Forall₂ (EpisodeOf policy) gs es) ∧ gs.Pairwise Apart
      ∧ ∀ g ∈ gs, ∀ last ∈ s.1.lookup g.1.armKey, last ≤ g.1.entryTime := by
  induction gs generalizing s with
  | nil =>
    rw [foldlM_nil, pure_ok] at h
    subst h
    refine ⟨⟨[], by simp, .nil⟩, .nil, fun g hg => ?_⟩
    cases hg
  | cons g gs ih =>
    rw [foldlM_cons, bind_ok] at h
    obtain ⟨s₁, hfirst, hrest⟩ := h
    obtain ⟨huniform, -, htime, e, he, rfl⟩ := visitGroup_ok.mp hfirst
    obtain ⟨⟨es, hes, hall⟩, happart, hlater⟩ := ih hrest
    -- the exits of an arm only grow
    have happart' : ∀ g' ∈ gs, Apart g g' := by
      intro g' hg' harm
      refine hlater g' hg' g.1.exitTime ?_
      rw [lookup_setItem, if_pos harm.symm]
      rfl
    refine ⟨⟨e :: es, by simp [hes], .cons ⟨huniform, closeEpisode_ok he⟩
      hall⟩, pairwise_cons.mpr ⟨happart', happart⟩, ?_⟩
    intro g' hg' last hlast
    rcases mem_cons.mp hg' with rfl | hg'
    · exact htime last hlast
    · by_cases harm : g'.1.armKey = g.1.armKey
      · rw [harm] at hlast
        have hexit := happart' g' hg' harm.symm
        exact (htime last hlast).trans (g.1.times.2.1.le.trans hexit)
      · refine hlater g' hg' last ?_
        rw [lookup_setItem, if_neg harm]
        exact hlast

theorem buildEpisodePath_eq (h : legs ≠ [] ∧ (legs.map (·.observationId)).Nodup) :
    buildEpisodePath policy legs = (do
      let s ← (ordered legs).foldlM (visit policy) ([], [])
      return s.2) := by
  unfold buildEpisodePath
  rw [require_true h, ok_bind]
  rfl

theorem buildEpisodePath_ok (h : buildEpisodePath policy legs = .ok episodes) :
    (legs ≠ [] ∧ (legs.map (·.observationId)).Nodup)
      ∧ ∃ ends, (ordered legs).foldlM (visit policy) ([], []) = .ok (ends, episodes) := by
  have hroster : legs ≠ [] ∧ (legs.map (·.observationId)).Nodup := by
    simp only [buildEpisodePath, bind_ok, require_ok] at h
    obtain ⟨-, hroster, -⟩ := h
    exact hroster
  rw [buildEpisodePath_eq hroster, bind_ok] at h
  obtain ⟨⟨ends, es⟩, hrun, heq⟩ := h
  cases heq
  exact ⟨hroster, ends, hrun⟩

theorem mem_group (hleg : leg ∈ legs) :
    ∃ g ∈ ordered legs, leg ∈ g.2 ∧ g.1.episodeKey = leg.episodeKey := by
  obtain ⟨g, hg, hmem⟩ := mem_flatMap.mp (groups_perm.symm.subset hleg)
  have hin := hmem
  rw [(group_spec hg).2] at hin
  exact ⟨g, mem_ordered.mpr hg, hmem, (mem_roster.mp hin).2.symm⟩

-- ==== permuted legs

structure SameGroup (g g' : EpisodeLeg × List EpisodeLeg) : Prop where
  key : g.1.episodeKey = g'.1.episodeKey
  first : g.1 ∈ g.2
  first' : g'.1 ∈ g'.2
  legs : g.2.Perm g'.2

theorem ordered_same (hperm : legs.Perm legs') (hone : OneDecision legs) :
    List.Forall₂ SameGroup (ordered legs) (ordered legs') := by
  have hkeys := ordered_keys_eq hperm hone
  rw [← forall₂_eq_eq_eq, forall₂_map_left_iff, forall₂_map_right_iff] at hkeys
  apply forall₂_imp_of_mem hkeys
  intro g hg g' hg' horder
  obtain ⟨hfirst, hroster⟩ := group_spec (mem_ordered.mp hg)
  obtain ⟨hfirst', hroster'⟩ := group_spec (mem_ordered.mp hg')
  have hkey : g.1.episodeKey = g'.1.episodeKey := congrArg (fun key => (ofLex key).2) horder
  refine ⟨hkey, hfirst, hfirst', ?_⟩
  rw [hroster, hroster', hkey]
  exact hperm.filter _

def allocationError : EpisodeError := .valueError "episode allocation exceeds initial capital"

/-- A group that is accepted is accepted permuted, to the same state,
unless the context sums the permuted weights to more than the capital. -/
theorem visit_perm (hsame : SameGroup g g') (h : visit policy s g = .ok s') :
    ((Allocated policy g.2 → Allocated policy g'.2) → visit policy s g' = .ok s')
      ∧ (visit policy s g' = .ok s' ∨ visit policy s g' = .error allocationError) := by
  obtain ⟨huniform, hallocated, htime, e, he, hs'⟩ := visitGroup_ok.mp h
  have hshape : g'.1.shape = g.1.shape := huniform.shape g'.1 (hsame.legs.symm.subset hsame.first')
  have huniform' : Uniform g'.1 g'.2 := by
    constructor
    case shape =>
      intro leg hleg
      rw [hshape]
      exact huniform.shape leg (hsame.legs.symm.subset hleg)
    case instruments => exact (hsame.legs.map _).nodup_iff.mp huniform.instruments
  have hsorted : sortBy (·.instrumentId) g'.2 = sortBy (·.instrumentId) g.2 :=
    (sortBy_eq_of_perm hsame.legs huniform.instruments).symm
  obtain ⟨harm, -, -, hentry, hexit⟩ : g'.1.armKey = g.1.armKey ∧ g'.1.foldKey = g.1.foldKey
        ∧ g'.1.decisionTime = g.1.decisionTime
        ∧ g'.1.entryTime = g.1.entryTime ∧ g'.1.exitTime = g.1.exitTime := by
    simpa [EpisodeLeg.shape] using hshape
  have hok : Allocated policy g'.2 → visit policy s g' = .ok s' := by
    intro hallocated'
    refine visitGroup_ok.mpr ⟨huniform', hallocated', ?_, e, ?_, ?_⟩
    · rwa [harm, hentry]
    · rwa [hsorted, ← hsame.key]
    · rwa [harm, hexit]
  refine ⟨fun himp => hok (himp hallocated), ?_⟩
  by_cases hallocated' : Allocated policy g'.2
  · exact .inl (hok hallocated')
  · right
    unfold visit visitGroup
    rw [require_true huniform'.shape, ok_bind,
      require_true huniform'.instruments, ok_bind, bind_error]
    exact .inl (require_error.mpr ⟨hallocated', rfl⟩)

/-- The loop takes permuted groups where it takes the groups, or stops at
the sum of some weights. -/
theorem visits_perm {gs gs' : List (EpisodeLeg × List EpisodeLeg)}
    (hsame : List.Forall₂ SameGroup gs gs') (h : gs.foldlM (visit policy) s = .ok s') :
    (List.Forall₂ (fun g g' => Allocated policy g.2 → Allocated policy g'.2)
        gs gs' → gs'.foldlM (visit policy) s = .ok s')
      ∧ (gs'.foldlM (visit policy) s = .ok s'
        ∨ gs'.foldlM (visit policy) s = .error allocationError) := by
  induction hsame generalizing s with
  | nil => exact ⟨fun _ => h, .inl h⟩
  | @cons g g' gs gs' hg _ ih =>
    rw [foldlM_cons, bind_ok] at h
    obtain ⟨s₁, hfirst, hrest⟩ := h
    obtain ⟨hok, hcases⟩ := visit_perm hg hfirst
    obtain ⟨hoks, hcases'⟩ := ih hrest
    rw [foldlM_cons]
    constructor
    · intro himp
      obtain ⟨himp, himps⟩ := forall₂_cons.mp himp
      rw [hok himp, ok_bind]
      exact hoks himps
    · rcases hcases with hok | herr
      · rw [hok, ok_bind]
        exact hcases'
      · rw [herr]
        exact .inr rfl

def ExactWeights (policy : EpisodePolicy) (legs : List EpisodeLeg) : Prop :=
  ∀ leg ∈ legs, ∀ order, order.Perm ((roster legs leg.episodeKey).map (·.proposedWeight)) →
      ExactSum policy.decimalPrecision order

/-- A path does not depend on the order of its legs, unless the context
rounds the sum of the weights of an episode. -/
theorem path_perm (h : buildEpisodePath policy legs = .ok episodes) (hperm : legs.Perm legs') :
    (ExactWeights policy legs → buildEpisodePath policy legs' = .ok episodes)
      ∧ (buildEpisodePath policy legs' = .ok episodes
        ∨ buildEpisodePath policy legs' = .error allocationError) := by
  obtain ⟨⟨hne, hnodup⟩, ends, hrun⟩ := buildEpisodePath_ok h
  have hroster' : legs' ≠ [] ∧ (legs'.map (·.observationId)).Nodup := by
    refine ⟨fun hnil => hne ?_, (hperm.map _).nodup_iff.mp hnodup⟩
    rw [hnil] at hperm
    exact hperm.eq_nil
  obtain ⟨⟨es, -, hall⟩, -⟩ := visits_ok hrun
  have hone : OneDecision legs := by
    intro a ha b hb hkey
    obtain ⟨g, hg, hag, hgkey⟩ := mem_group ha
    obtain ⟨e, -, hof⟩ := forall₂_left hall hg
    have hbg : b ∈ g.2 := by
      rw [(group_spec (mem_ordered.mp hg)).2, hgkey, hkey]
      exact mem_roster.mpr ⟨hb, rfl⟩
    have hshape := (hof.uniform.shape a hag).trans (hof.uniform.shape b hbg).symm
    exact congrArg (fun shape => shape.2.2.1) hshape
  have hsame := ordered_same hperm hone
  obtain ⟨hok, hcases⟩ := visits_perm hsame hrun
  rw [buildEpisodePath_eq hroster']
  constructor
  · intro hexact
    have himp : List.Forall₂ (fun g g' => Allocated policy g.2 → Allocated policy g'.2)
        (ordered legs) (ordered legs') := by
      apply forall₂_imp_of_mem hsame
      intro g hg g' hg' hgg
      obtain ⟨hfirst, hroster⟩ := group_spec (mem_ordered.mp hg)
      have hin := (mem_roster.mp (hroster ▸ hfirst)).1
      have hweights := hgg.legs.map (·.proposedWeight)
      have hexact := hexact g.1 hin
      rw [← hroster] at hexact
      unfold Allocated
      rw [sumContext_eq (hexact _ (Perm.refl _)),
        sumContext_eq (hexact _ hweights.symm), hweights.sum_eq]
      exact id
    rw [hok himp]
    rfl
  · rcases hcases with hok | herr
    · rw [hok]
      exact .inl rfl
    · rw [herr]
      exact .inr rfl

-- ==== legs that do not trade

/-- The groups differ at most in what idle legs leave unread. -/
structure GroupAlike (g g' : EpisodeLeg × List EpisodeLeg) : Prop where
  first : g.1.Alike g'.1
  legs : List.Forall₂ EpisodeLeg.Alike g.2 g'.2

theorem roster_alike (h : List.Forall₂ EpisodeLeg.Alike legs legs') (k : String) :
    List.Forall₂ EpisodeLeg.Alike (roster legs k) (roster legs' k) := by
  unfold roster
  induction h with
  | nil => exact .nil
  | @cons a b legs legs' hab _ ih =>
    by_cases hk : a.episodeKey = k
    · have hk' : b.episodeKey = k := hab.episodeKey ▸ hk
      rw [filter_cons_of_pos (by simpa using hk), filter_cons_of_pos (by simpa using hk')]
      exact .cons hab ih
    · have hk' : b.episodeKey ≠ k := hab.episodeKey ▸ hk
      rw [filter_cons_of_neg (by simpa using hk), filter_cons_of_neg (by simpa using hk')]
      exact ih

theorem groups_alike (h : List.Forall₂ EpisodeLeg.Alike legs legs') :
    List.Forall₂ GroupAlike (groups legs) (groups legs') := by
  rw [groups_eq, groups_eq, map_forall₂ h fun a b hab => hab.episodeKey]
  induction firsts (legs'.map (·.episodeKey)) with
  | nil => exact .nil
  | cons k ks ih =>
    have hroster := roster_alike h k
    rw [filterMap_cons, filterMap_cons]
    generalize roster legs k = group, roster legs' k = group' at hroster
    cases hroster with
    | nil => exact ih
    | cons hab hall => exact .cons ⟨hab, .cons hab hall⟩ ih

theorem visit_alike {s : Visits} (h : GroupAlike g g') : visit policy s g = visit policy s g' := by
  have hshapes : g.2.map (·.shape) = g'.2.map (·.shape) :=
    map_forall₂ h.legs fun a b hab => hab.shape
  have hinstruments : g.2.map (·.instrumentId) = g'.2.map (·.instrumentId) :=
    map_forall₂ h.legs fun a b hab => hab.instrumentId
  have hweights : g.2.map (·.proposedWeight) = g'.2.map (·.proposedWeight) :=
    map_forall₂ h.legs fun a b hab => hab.proposedWeight
  have hsorted : List.Forall₂ EpisodeLeg.Alike
      (sortBy (·.instrumentId) g.2) (sortBy (·.instrumentId) g'.2) :=
    forall₂_sortBy (fun a b hab => hab.instrumentId) h.legs
  have hshape : (∀ leg ∈ g.2, leg.shape = g.1.shape) ↔ ∀ leg ∈ g'.2, leg.shape = g'.1.shape := by
    rw [← forall_mem_map (P := fun x => x = g.1.shape), hshapes,
      forall_mem_map, h.first.shape]
  have hfirst := h.first.shape
  simp only [EpisodeLeg.shape, Prod.mk.injEq] at hfirst
  obtain ⟨harm, -, -, hentry, hexit⟩ := hfirst
  unfold visit visitGroup
  rw [require_congr _ hshape, hinstruments, hweights, harm, hentry, hexit,
    h.first.episodeKey, closeEpisode_alike hsorted]

theorem path_alike (h : List.Forall₂ EpisodeLeg.Alike legs legs') :
    buildEpisodePath policy legs = buildEpisodePath policy legs' := by
  have hids : legs.map (·.observationId) = legs'.map (·.observationId) :=
    map_forall₂ h fun a b hab => hab.observationId
  have hnil : legs ≠ [] ↔ legs' ≠ [] := by
    rw [← length_pos_iff, ← length_pos_iff, h.length_eq]
  have hordered : List.Forall₂ GroupAlike (ordered legs) (ordered legs') := by
    apply forall₂_sortBy _ (groups_alike h)
    intro g g' hg
    have hshape := congrArg (fun shape => shape.2.2.1) hg.first.shape
    have hdecision : g.1.decisionTime = g'.1.decisionTime := hshape
    unfold orderKey
    rw [hdecision, hg.first.episodeKey]
  have hrun : ∀ s : Visits, (ordered legs).foldlM (visit policy) s
      = (ordered legs').foldlM (visit policy) s := by
    generalize ordered legs = gs, ordered legs' = gs' at hordered
    induction hordered with
    | nil => exact fun s => rfl
    | cons hg _ ih =>
      intro s
      rw [foldlM_cons, foldlM_cons, visit_alike hg]
      congr 1
      funext s'
      exact ih s'
  have hrun := hrun ([], [])
  unfold buildEpisodePath
  rw [require_congr _ (and_congr hnil (by rw [hids]))]
  congr 1
  funext _
  exact congrArg (fun run => run >>= fun s => pure s.2) hrun

end MarketRegimeAlpha.ResearchQualification
