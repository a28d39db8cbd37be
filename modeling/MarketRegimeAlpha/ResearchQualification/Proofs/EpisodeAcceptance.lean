/-
When a path of episodes is accepted.

# One group

A group is accepted when its roster is complete, its weights come to no
more than the capital and its amounts have a place in the context. The
last is asked of the legs in the order of their instruments, and only up
to the first that has no market fact (`Closable`).
-/
import Mathlib
import MarketRegimeAlpha.ResearchQualification.Proofs.EpisodeSoundness

namespace MarketRegimeAlpha.ResearchQualification

open Lib List

variable {policy : EpisodePolicy} {legs : List EpisodeLeg}

-- ==== amounts

def EpisodePolicy.Fits (policy : EpisodePolicy) (rounding : ℚ → Int) (unit x : ℚ) : Prop :=
  |rounding (x / unit)| < 10 ^ policy.decimalPrecision

theorem quantize_ok {rounding : ℚ → Int} {unit x y : ℚ} : policy.quantize rounding unit x = .ok y
      ↔ policy.Fits rounding unit x ∧ Lib.quantize rounding unit x = y := by
  unfold EpisodePolicy.quantize
  simp only [bind_ok, require_ok, pure_ok]
  constructor
  · rintro ⟨-, hfits, hy⟩
    exact ⟨hfits, hy⟩
  · rintro ⟨hfits, hy⟩
    exact ⟨(), hfits, hy⟩

def EpisodePolicy.share (policy : EpisodePolicy) (leg : EpisodeLeg) (entryPrice : ℚ) : ℚ :=
  policy.round (policy.round (policy.initialCapital * leg.proposedWeight) / entryPrice)

def EpisodePolicy.units (policy : EpisodePolicy) (leg : EpisodeLeg) (entryPrice : ℚ) : ℚ :=
  Lib.quantize truncate (1 / 10 ^ 18) (policy.share leg entryPrice)

/-- Units at a price, in cents. -/
def EpisodePolicy.notional (policy : EpisodePolicy) (units price : ℚ) : ℚ :=
  Lib.quantize halfEven cent (policy.round (units * price))

def EpisodePolicy.fee (policy : EpisodePolicy) (amount bps : ℚ) : ℚ :=
  policy.round (policy.round (amount * bps) / 10000)

/-- The amounts of a leg at its two prices have a place in the context. -/
structure Representable (policy : EpisodePolicy) (leg : EpisodeLeg)
    (entryPrice exitPrice : ℚ) : Prop where
  units : policy.Fits truncate (1 / 10 ^ 18) (policy.share leg entryPrice)
  buy : policy.Fits halfEven cent (policy.round (policy.units leg entryPrice * entryPrice))
  sell : policy.Fits halfEven cent (policy.round (policy.units leg entryPrice * exitPrice))
  buyFee : policy.Fits halfEven cent (policy.fee
    (policy.notional (policy.units leg entryPrice) entryPrice) policy.buyFeeBps)
  sellFee : policy.Fits halfEven cent (policy.fee
    (policy.notional (policy.units leg entryPrice) exitPrice) policy.sellFeeBps)

structure TradedAt (policy : EpisodePolicy) (leg : EpisodeLeg)
    (entryPrice exitPrice : ℚ) (trade : EpisodeLegResult) : Prop where
  buy : trade.buyNotional = policy.notional (policy.units leg entryPrice) entryPrice
  sell : trade.sellNotional = policy.notional (policy.units leg entryPrice) exitPrice
  buyFee : trade.buyFee = Lib.quantize halfEven cent (policy.fee trade.buyNotional policy.buyFeeBps)
  sellFee : trade.sellFee = Lib.quantize halfEven cent
      (policy.fee trade.sellNotional policy.sellFeeBps)

variable {leg : EpisodeLeg} {s : Visits} {g : EpisodeLeg × List EpisodeLeg} {legs : List EpisodeLeg}
  {entryPrice exitPrice : ℚ}

theorem tradeAt_amounts {trade : EpisodeLegResult}
    (h : tradeAt policy leg entryPrice exitPrice = .ok trade) :
    Representable policy leg entryPrice exitPrice
      ∧ TradedAt policy leg entryPrice exitPrice trade := by
  simp only [tradeAt, bind_ok, pure_ok, quantize_ok] at h
  obtain ⟨_, ⟨hunits, rfl⟩, _, ⟨hbuy, rfl⟩, _, ⟨hsell, rfl⟩, _,
    ⟨hbuyFee, rfl⟩, _, ⟨hsellFee, rfl⟩, rfl⟩ := h
  exact ⟨⟨hunits, hbuy, hsell, hbuyFee, hsellFee⟩, ⟨rfl, rfl, rfl, rfl⟩⟩

theorem exists_tradeAt : (∃ trade, tradeAt policy leg entryPrice exitPrice = .ok trade)
      ↔ Representable policy leg entryPrice exitPrice := by
  constructor
  · rintro ⟨trade, htrade⟩
    exact (tradeAt_amounts htrade).1
  · rintro ⟨hunits, hbuy, hsell, hbuyFee, hsellFee⟩
    have hunits := quantize_ok.mpr ⟨hunits, rfl⟩
    have hbuy := quantize_ok.mpr ⟨hbuy, rfl⟩
    have hsell := quantize_ok.mpr ⟨hsell, rfl⟩
    have hbuyFee := quantize_ok.mpr ⟨hbuyFee, rfl⟩
    have hsellFee := quantize_ok.mpr ⟨hsellFee, rfl⟩
    unfold EpisodePolicy.notional EpisodePolicy.units EpisodePolicy.fee EpisodePolicy.share at *
    unfold tradeAt
    rw [hunits, ok_bind, hbuy, ok_bind, hsell, ok_bind, hbuyFee, ok_bind, hsellFee]
    exact ⟨_, rfl⟩

-- ==== the legs

def EpisodeLeg.Incomplete (policy : EpisodePolicy) (leg : EpisodeLeg) : Prop :=
  ¬ leg.idle ∧ (leg.availability ≠ "AVAILABLE" ∨ leg.priceBasis ≠ policy.priceBasis
    ∨ leg.entryPrice = none ∨ leg.exitPrice = none)

def EpisodeLeg.Fits (policy : EpisodePolicy) (leg : EpisodeLeg) : Prop :=
  ¬ leg.idle → ∀ entryPrice ∈ leg.entryPrice, ∀ exitPrice ∈ leg.exitPrice,
    Representable policy leg entryPrice exitPrice

/-- The legs up to the first that is incomplete fit the context. -/
def Closable (policy : EpisodePolicy) (legs : List EpisodeLeg) : Prop :=
  ∀ leg ∈ legs, (∀ other ∈ legs, other.instrumentId ≤ leg.instrumentId →
    ¬ other.Incomplete policy) → leg.Fits policy

theorem tradeLeg_incomplete (h : leg.Incomplete policy) :
    ∃ reason, tradeLeg policy leg = .ok (.error reason) := by
  obtain ⟨hidle, hlacks⟩ := h
  unfold tradeLeg
  rw [if_neg hidle]
  by_cases havailable : leg.availability ≠ "AVAILABLE"
  · rw [if_pos havailable]
    exact ⟨_, rfl⟩
  · rw [if_neg havailable]
    by_cases hbasis : leg.priceBasis ≠ policy.priceBasis
    · rw [if_pos hbasis]
      exact ⟨_, rfl⟩
    · rw [if_neg hbasis]
      rcases hlacks with h | h | h | h
      · exact absurd h havailable
      · exact absurd h hbasis
      · rw [h]
        exact ⟨_, rfl⟩
      · rw [h]
        cases leg.entryPrice with
        | none => exact ⟨_, rfl⟩
        | some entryPrice => exact ⟨_, rfl⟩

variable (h : ¬ leg.Incomplete policy)

include h in
theorem tradeLeg_complete (hidle : ¬ leg.idle) : ∃ entryPrice exitPrice,
      leg.entryPrice = some entryPrice ∧ leg.exitPrice = some exitPrice
        ∧ tradeLeg policy leg = (tradeAt policy leg entryPrice exitPrice).map .ok := by
  have hfacts : leg.availability = "AVAILABLE" ∧ leg.priceBasis = policy.priceBasis
      ∧ leg.entryPrice ≠ none ∧ leg.exitPrice ≠ none := by
    by_contra hlacks
    apply h
    refine ⟨hidle, ?_⟩
    tauto
  obtain ⟨havailable, hbasis, hentry, hexit⟩ := hfacts
  obtain ⟨entryPrice, hentry⟩ := Option.ne_none_iff_exists'.mp hentry
  obtain ⟨exitPrice, hexit⟩ := Option.ne_none_iff_exists'.mp hexit
  refine ⟨entryPrice, exitPrice, hentry, hexit, ?_⟩
  unfold tradeLeg
  rw [if_neg hidle, if_neg (not_not_intro havailable), if_neg (not_not_intro hbasis), hentry, hexit]
  dsimp only
  cases tradeAt policy leg entryPrice exitPrice with
  | error e => rfl
  | ok trade => rfl

include h in
theorem tradeLeg_trade {outcome : Except EpisodeReason EpisodeLegResult}
    (houtcome : tradeLeg policy leg = .ok outcome) :
    ∃ trade, outcome = .ok trade := by
  by_cases hidle : leg.idle
  · unfold tradeLeg at houtcome
    rw [if_pos hidle] at houtcome
    cases houtcome
    exact ⟨_, rfl⟩
  · obtain ⟨entryPrice, exitPrice, -, -, htrade⟩ := tradeLeg_complete h hidle
    rw [htrade] at houtcome
    cases hat : tradeAt policy leg entryPrice exitPrice with
    | error e =>
      rw [hat] at houtcome
      cases houtcome
    | ok trade =>
      rw [hat] at houtcome
      cases houtcome
      exact ⟨trade, rfl⟩

include h in
theorem exists_tradeLeg : (∃ trade, tradeLeg policy leg = .ok (.ok trade)) ↔ leg.Fits policy := by
  by_cases hidle : leg.idle
  · refine iff_of_true ⟨.none leg.observationId, ?_⟩ fun h => absurd hidle h
    unfold tradeLeg
    rw [if_pos hidle]
    rfl
  · obtain ⟨entryPrice, exitPrice, hentry, hexit, htrade⟩ := tradeLeg_complete h hidle
    have hfits : leg.Fits policy ↔ Representable policy leg entryPrice exitPrice := by
      unfold EpisodeLeg.Fits
      rw [hentry, hexit]
      constructor
      · exact fun h => h hidle entryPrice rfl exitPrice rfl
      · intro h _ p hp x hx
        cases hp
        cases hx
        exact h
    rw [hfits, ← exists_tradeAt, htrade]
    cases tradeAt policy leg entryPrice exitPrice with
    | error e => exact ⟨nofun, nofun⟩
    | ok trade => exact ⟨fun _ => ⟨trade, rfl⟩, fun _ => ⟨trade, rfl⟩⟩

variable (hsorted : legs.Pairwise (·.instrumentId < ·.instrumentId))

include hsorted in
/-- The loop over legs in the order of their instruments ends when the legs
up to the first that is incomplete fit. -/
theorem exists_tradeLegs :
    (∃ outcome, tradeLegs policy legs = .ok outcome) ↔ Closable policy legs := by
  induction legs with
  | nil =>
    refine iff_of_true ⟨_, rfl⟩ fun leg hleg => ?_
    cases hleg
  | cons leg legs ih =>
    obtain ⟨hfirst, hrest⟩ := pairwise_cons.mp hsorted
    have hself : ∀ other ∈ leg :: legs, other.instrumentId ≤ leg.instrumentId → other = leg := by
      intro other hother hle
      rcases mem_cons.mp hother with rfl | hother
      · rfl
      · exact absurd hle (not_le.mpr (hfirst other hother))
    unfold tradeLegs Closable
    by_cases hincomplete : leg.Incomplete policy
    · -- the leg ends the loop, and nothing is asked of it or of the rest
      obtain ⟨reason, hreason⟩ := tradeLeg_incomplete hincomplete
      rw [hreason, ok_bind]
      refine iff_of_true ⟨_, rfl⟩ fun other hother hcomplete => ?_
      have hle : leg.instrumentId ≤ other.instrumentId := by
        rcases mem_cons.mp hother with rfl | hother
        · exact le_rfl
        · exact (hfirst other hother).le
      exact absurd hincomplete (hcomplete leg mem_cons_self hle)
    · rw [forall_mem_cons]
      have hhead : ((∀ other ∈ leg :: legs,
          other.instrumentId ≤ leg.instrumentId → ¬ other.Incomplete policy) →
            leg.Fits policy) ↔ leg.Fits policy := by
        constructor
        · intro h
          apply h
          intro other hother hle
          rwa [hself other hother hle]
        · exact fun h _ => h
      have htail : (∀ next ∈ legs, (∀ other ∈ leg :: legs, other.instrumentId ≤ next.instrumentId →
            ¬ other.Incomplete policy) → next.Fits policy)
            ↔ Closable policy legs := by
        apply forall₂_congr
        intro next hnext
        rw [forall_mem_cons, and_iff_right fun _ => hincomplete]
      rw [hhead, htail, ← exists_tradeLeg hincomplete, ← ih hrest]
      constructor
      · rintro ⟨outcome, houtcome⟩
        obtain ⟨first, htrade, houtcome⟩ := bind_ok.mp houtcome
        obtain ⟨trade, rfl⟩ := tradeLeg_trade hincomplete htrade
        obtain ⟨rest, hrest, -⟩ := bind_ok.mp houtcome
        exact ⟨⟨trade, htrade⟩, rest, hrest⟩
      · rintro ⟨⟨trade, htrade⟩, outcome, houtcome⟩
        rw [htrade, ok_bind]
        dsimp only
        rw [houtcome, ok_bind]
        cases outcome with
        | error reason => exact ⟨_, rfl⟩
        | ok trades => exact ⟨_, rfl⟩

include hsorted in
theorem exists_closeEpisode {episodeKey : String} :
    (∃ e, closeEpisode policy episodeKey legs = .ok e) ↔ Closable policy legs := by
  rw [← exists_tradeLegs hsorted]
  unfold closeEpisode
  constructor
  · rintro ⟨e, he⟩
    obtain ⟨outcome, houtcome, -⟩ := bind_ok.mp he
    exact ⟨outcome, houtcome⟩
  · rintro ⟨outcome, houtcome⟩
    rw [houtcome, ok_bind]
    cases outcome with
    | error reason => exact ⟨_, rfl⟩
    | ok trades => exact ⟨_, rfl⟩

-- ==== the groups

/-- What a group must be, apart from the others. -/
structure Acceptable (policy : EpisodePolicy) (g : EpisodeLeg × List EpisodeLeg) : Prop where
  uniform : Uniform g.1 g.2
  allocated : Allocated policy g.2
  closable : Closable policy g.2

theorem closable_perm {legs legs' : List EpisodeLeg} (h : legs.Perm legs') :
    Closable policy legs ↔ Closable policy legs' := by
  unfold Closable
  simp only [h.mem_iff]

/-- A group is accepted when it is acceptable and enters after the last exit
of its arm; the exit is then its own. -/
theorem exists_visit : (∃ s', visit policy s g = .ok s') ↔ Acceptable policy g
      ∧ ∀ last ∈ s.1.lookup g.1.armKey, last ≤ g.1.entryTime := by
  have hsorted : (g.2.map (·.instrumentId)).Nodup → (sortBy (·.instrumentId) g.2).Pairwise
        (·.instrumentId < ·.instrumentId) := by
    intro hnodup
    have hperm := sortBy_perm EpisodeLeg.instrumentId g.2
    have hne : (sortBy (·.instrumentId) g.2).Pairwise fun a b => a.instrumentId ≠ b.instrumentId :=
      pairwise_map.mp ((hperm.map _).nodup_iff.mpr hnodup)
    exact ((sortBy_pairwise EpisodeLeg.instrumentId g.2).and hne).imp
      fun h => lt_of_le_of_ne h.1 h.2
  have hclose : Uniform g.1 g.2 → ((∃ e, closeEpisode policy g.1.episodeKey
      (sortBy (·.instrumentId) g.2) = .ok e) ↔ Closable policy g.2) := by
    intro huniform
    rw [exists_closeEpisode (hsorted huniform.instruments)]
    exact closable_perm (sortBy_perm _ _)
  constructor
  · rintro ⟨s', hs'⟩
    obtain ⟨huniform, hallocated, htime, e, he, -⟩ := visitGroup_ok.mp hs'
    exact ⟨⟨huniform, hallocated, (hclose huniform).mp ⟨e, he⟩⟩, htime⟩
  · rintro ⟨⟨huniform, hallocated, hclosable⟩, htime⟩
    obtain ⟨e, he⟩ := (hclose huniform).mpr hclosable
    exact ⟨_, visitGroup_ok.mpr ⟨huniform, hallocated, htime, e, he, rfl⟩⟩

/-- A run is accepted when its groups are, and each leaves before those of
its arm after it enter. -/
theorem exists_visits {gs : List (EpisodeLeg × List EpisodeLeg)} :
    (∃ s', gs.foldlM (visit policy) s = .ok s')
      ↔ (∀ g ∈ gs, Acceptable policy g) ∧ gs.Pairwise Apart
        ∧ ∀ g ∈ gs, ∀ last ∈ s.1.lookup g.1.armKey, last ≤ g.1.entryTime := by
  constructor
  · rintro ⟨s', hs'⟩
    obtain ⟨-, happart, htimes⟩ := visits_ok hs'
    refine ⟨?_, happart, htimes⟩
    clear happart htimes
    induction gs generalizing s with
    | nil =>
      intro g hg
      cases hg
    | cons g gs ih =>
      rw [foldlM_cons, bind_ok] at hs'
      obtain ⟨s₁, hfirst, hrest⟩ := hs'
      rw [forall_mem_cons]
      exact ⟨(exists_visit.mp ⟨s₁, hfirst⟩).1, ih hrest⟩
  · rintro ⟨hacceptable, happart, htimes⟩
    induction gs generalizing s with
    | nil => exact ⟨s, rfl⟩
    | cons g gs ih =>
      rw [forall_mem_cons] at hacceptable htimes
      obtain ⟨hbefore, happart⟩ := pairwise_cons.mp happart
      obtain ⟨s₁, hs₁⟩ := exists_visit.mpr ⟨hacceptable.1, htimes.1⟩
      obtain ⟨-, -, -, e, -, rfl⟩ := visitGroup_ok.mp hs₁
      rw [foldlM_cons, hs₁, ok_bind]
      apply ih hacceptable.2 happart
      intro g' hg' last hlast
      by_cases harm : g'.1.armKey = g.1.armKey
      · rw [lookup_setItem, if_pos harm] at hlast
        cases hlast
        exact hbefore g' hg' harm.symm
      · rw [lookup_setItem, if_neg harm] at hlast
        exact htimes.2 g' hg' last hlast

-- ==== the order

/-- The legs of an episode have one arm, one fold and one set of times. -/
def OneShape (legs : List EpisodeLeg) : Prop :=
  ∀ a ∈ legs, ∀ b ∈ legs, a.episodeKey = b.episodeKey → a.shape = b.shape

def OneLegEach (legs : List EpisodeLeg) : Prop :=
  ∀ leg ∈ legs, ((roster legs leg.episodeKey).map (·.instrumentId)).Nodup

def ArmsDisjoint (legs : List EpisodeLeg) : Prop :=
  ∀ a ∈ legs, ∀ b ∈ legs, a.armKey = b.armKey → a.episodeKey ≠ b.episodeKey →
    Disjoint (Set.Ico a.entryTime a.exitTime) (Set.Ico b.entryTime b.exitTime)

/-- The episodes of an arm enter in the order of their decisions, those
decided at one time in the order of their keys. -/
def EntersInOrder (legs : List EpisodeLeg) : Prop :=
  ∀ a ∈ legs, ∀ b ∈ legs, a.armKey = b.armKey →
    toLex (a.decisionTime, a.episodeKey) < toLex (b.decisionTime, b.episodeKey) →
      a.entryTime ≤ b.entryTime

theorem shape_eq {a b : EpisodeLeg} (h : a.shape = b.shape) :
    a.armKey = b.armKey ∧ a.decisionTime = b.decisionTime
      ∧ a.entryTime = b.entryTime ∧ a.exitTime = b.exitTime := by
  simp only [EpisodeLeg.shape, Prod.mk.injEq] at h
  exact ⟨h.1, h.2.2⟩

theorem group_of_leg (hshape : OneShape legs) (hleg : leg ∈ legs) : ∃ g ∈ ordered legs,
      g.1.episodeKey = leg.episodeKey ∧ g.1.shape = leg.shape := by
  obtain ⟨g, hg, -, hkey⟩ := mem_group hleg
  obtain ⟨hfirst, hroster⟩ := group_spec (mem_ordered.mp hg)
  rw [hroster] at hfirst
  exact ⟨g, hg, hkey, hshape g.1 (mem_roster.mp hfirst).1 leg hleg hkey⟩

theorem first_mem (hg : g ∈ ordered legs) : g.1 ∈ legs := by
  obtain ⟨hfirst, hroster⟩ := group_spec (mem_ordered.mp hg)
  rw [hroster] at hfirst
  exact (mem_roster.mp hfirst).1

theorem ordered_apart (happart : (ordered legs).Pairwise Apart)
    {g g' : EpisodeLeg × List EpisodeLeg} (hg : g ∈ ordered legs)
    (hg' : g' ∈ ordered legs) (h : orderKey g < orderKey g') : Apart g g' := by
  have hsorted : (ordered legs).Pairwise fun g g' => orderKey g ≤ orderKey g' :=
    sortBy_pairwise orderKey (groups legs)
  have heither : (ordered legs).Pairwise fun g g' =>
      (orderKey g ≤ orderKey g' ∧ Apart g g') ∨ (orderKey g' ≤ orderKey g ∧ Apart g' g) :=
    (hsorted.and happart).imp .inl
  have hsymm : Std.Symm fun g g' : EpisodeLeg × List EpisodeLeg =>
      (orderKey g ≤ orderKey g' ∧ Apart g g')
        ∨ (orderKey g' ≤ orderKey g ∧ Apart g' g) := ⟨fun _ _ => Or.symm⟩
  have hne : g ≠ g' := fun heq => h.ne (congrArg orderKey heq)
  rcases heither.forall hg hg' hne with hbefore | hafter
  · exact hbefore.2
  · exact absurd h (not_lt.mpr hafter.1)

/-- Each group leaves before those of its arm after it enter, exactly when
the episodes of an arm are disjoint and enter in the order of their
decisions. -/
theorem ordered_apart_iff (hshape : OneShape legs) :
    (ordered legs).Pairwise Apart ↔ ArmsDisjoint legs ∧ EntersInOrder legs := by
  constructor
  · intro happart
    -- of two legs of different episodes, one is decided first
    have hapart : ∀ a ∈ legs, ∀ b ∈ legs, a.armKey = b.armKey → toLex (a.decisionTime, a.episodeKey)
          < toLex (b.decisionTime, b.episodeKey) → a.exitTime ≤ b.entryTime := by
      intro a ha b hb harm hbefore
      obtain ⟨g, hg, hkey, hgshape⟩ := group_of_leg hshape ha
      obtain ⟨g', hg', hkey', hgshape'⟩ := group_of_leg hshape hb
      obtain ⟨hgarm, hdecision, -, hexit⟩ := shape_eq hgshape
      obtain ⟨hgarm', hdecision', hentry', -⟩ := shape_eq hgshape'
      have hlt : orderKey g < orderKey g' := by
        unfold orderKey
        rwa [hkey, hkey', hdecision, hdecision']
      have h := ordered_apart happart hg hg' hlt (hgarm.trans (harm.trans hgarm'.symm))
      rwa [hexit, hentry'] at h
    constructor
    · intro a ha b hb harm hne
      have hdifferent : toLex (a.decisionTime, a.episodeKey)
          ≠ toLex (b.decisionTime, b.episodeKey) := by
        intro heq
        exact hne (congrArg (fun key => (ofLex key).2) heq)
      rw [Set.Ico_disjoint_Ico]
      rcases lt_or_gt_of_ne hdifferent with hbefore | hafter
      · exact (min_le_left _ _).trans ((hapart a ha b hb harm hbefore).trans (le_max_right _ _))
      · exact (min_le_right _ _).trans ((hapart b hb a ha harm.symm hafter).trans (le_max_left _ _))
    · intro a ha b hb harm hbefore
      exact a.times.2.1.le.trans (hapart a ha b hb harm hbefore)
  · rintro ⟨hdisjoint, horder⟩
    have hkeys : (ordered legs).Pairwise fun g g' => g.1.episodeKey ≠ g'.1.episodeKey :=
      pairwise_map.mp ordered_nodup
    have hsorted : (ordered legs).Pairwise fun g g' => orderKey g ≤ orderKey g' :=
      sortBy_pairwise orderKey (groups legs)
    apply (hsorted.and hkeys).imp_of_mem
    rintro g g' hg hg' ⟨hle, hne⟩ harm
    have hlt : orderKey g < orderKey g' := by
      apply lt_of_le_of_ne hle
      exact fun heq => hne (congrArg (fun key => (ofLex key).2) heq)
    have hentry := horder g.1 (first_mem hg) g'.1 (first_mem hg') harm hlt
    have hapart := hdisjoint g.1 (first_mem hg) g'.1 (first_mem hg') harm hne
    rw [Set.Ico_disjoint_Ico, max_eq_right hentry] at hapart
    rcases min_le_iff.mp hapart with h | h
    · exact h
    · exact absurd g'.1.times.2.1 (not_lt.mpr h)

-- ==== the path

structure AcceptedPath (policy : EpisodePolicy) (legs : List EpisodeLeg) : Prop where
  nonempty : legs ≠ []
  observations : (legs.map (·.observationId)).Nodup
  shape : OneShape legs
  instruments : OneLegEach legs
  allocated : ∀ leg ∈ legs, Allocated policy (roster legs leg.episodeKey)
  closable : ∀ leg ∈ legs, Closable policy (roster legs leg.episodeKey)
  disjoint : ArmsDisjoint legs
  order : EntersInOrder legs

/-- The groups are acceptable when the rosters of the legs are. -/
theorem acceptable_iff : (∀ g ∈ ordered legs, Acceptable policy g) ↔ OneShape legs ∧ OneLegEach legs
      ∧ (∀ leg ∈ legs, Allocated policy (roster legs leg.episodeKey))
      ∧ ∀ leg ∈ legs, Closable policy (roster legs leg.episodeKey) := by
  have hroster : ∀ leg ∈ legs, ∃ g ∈ ordered legs,
      g.2 = roster legs leg.episodeKey ∧ leg ∈ g.2 := by
    intro leg hleg
    obtain ⟨g, hg, hmem, hkey⟩ := mem_group hleg
    refine ⟨g, hg, ?_, hmem⟩
    rw [(group_spec (mem_ordered.mp hg)).2, hkey]
  constructor
  · intro hall
    have hof : ∀ leg ∈ legs, ∃ first, Acceptable policy (first, roster legs leg.episodeKey) := by
      intro leg hleg
      obtain ⟨g, hg, heq, -⟩ := hroster leg hleg
      refine ⟨g.1, ?_⟩
      rw [← heq]
      exact hall g hg
    refine ⟨?_, ?_, ?_, ?_⟩
    · intro a ha b hb hkey
      obtain ⟨first, hfirst⟩ := hof a ha
      have hshape := hfirst.uniform.shape
      exact (hshape a (mem_roster.mpr ⟨ha, rfl⟩)).trans
        (hshape b (mem_roster.mpr ⟨hb, hkey.symm⟩)).symm
    · intro leg hleg
      obtain ⟨first, hfirst⟩ := hof leg hleg
      exact hfirst.uniform.instruments
    · intro leg hleg
      obtain ⟨first, hfirst⟩ := hof leg hleg
      exact hfirst.allocated
    · intro leg hleg
      obtain ⟨first, hfirst⟩ := hof leg hleg
      exact hfirst.closable
  · rintro ⟨hshape, hinstruments, hallocated, hclosable⟩ g hg
    have hfirst := first_mem hg
    have heq := (group_spec (mem_ordered.mp hg)).2
    constructor
    case uniform =>
      constructor
      case shape =>
        intro leg hleg
        rw [heq] at hleg
        obtain ⟨hleg, hkey⟩ := mem_roster.mp hleg
        exact hshape leg hleg g.1 hfirst hkey
      case instruments => exact heq ▸ hinstruments g.1 hfirst
    case allocated => exact heq ▸ hallocated g.1 hfirst
    case closable => exact heq ▸ hclosable g.1 hfirst

theorem exists_path : (∃ episodes, buildEpisodePath policy legs = .ok episodes)
    ↔ AcceptedPath policy legs := by
  constructor
  · rintro ⟨episodes, hpath⟩
    obtain ⟨⟨hne, hids⟩, ends, hrun⟩ := buildEpisodePath_ok hpath
    obtain ⟨hacceptable, happart, -⟩ := exists_visits.mp ⟨_, hrun⟩
    obtain ⟨hshape, hinstruments, hallocated, hclosable⟩ := acceptable_iff.mp hacceptable
    obtain ⟨hdisjoint, horder⟩ := (ordered_apart_iff hshape).mp happart
    exact ⟨hne, hids, hshape, hinstruments, hallocated, hclosable, hdisjoint, horder⟩
  · intro h
    have hacceptable := acceptable_iff.mpr ⟨h.shape, h.instruments, h.allocated, h.closable⟩
    have happart := (ordered_apart_iff h.shape).mpr ⟨h.disjoint, h.order⟩
    obtain ⟨s, hs⟩ := (exists_visits (s := ([], []))).mpr ⟨hacceptable, happart, fun _ _ => nofun⟩
    refine ⟨s.2, ?_⟩
    rw [buildEpisodePath_eq ⟨h.nonempty, h.observations⟩, hs]
    rfl

/-- Legs whose episodes are complete are accepted exactly when the episodes
of each arm are disjoint, unless they are disjoint and are not accepted
otherwise. -/
theorem overlap_exact_iff (policy : EpisodePolicy) (legs : List EpisodeLeg)
    (hshape : OneShape legs) (hinstruments : OneLegEach legs) :
    ((∃ episodes, buildEpisodePath policy legs = .ok episodes) ↔ ArmsDisjoint legs)
      ↔ (ArmsDisjoint legs → EntersInOrder legs ∧ legs ≠ [] ∧ (legs.map (·.observationId)).Nodup
        ∧ (∀ leg ∈ legs, Allocated policy (roster legs leg.episodeKey))
        ∧ ∀ leg ∈ legs, Closable policy (roster legs leg.episodeKey)) := by
  rw [exists_path]
  constructor
  · intro h hdisjoint
    have haccepted := h.mpr hdisjoint
    exact ⟨haccepted.order, haccepted.nonempty, haccepted.observations,
      haccepted.allocated, haccepted.closable⟩
  · intro h
    constructor
    · exact fun haccepted => haccepted.disjoint
    · intro hdisjoint
      obtain ⟨horder, hne, hids, hallocated, hclosable⟩ := h hdisjoint
      exact ⟨hne, hids, hshape, hinstruments, hallocated, hclosable, hdisjoint, horder⟩

/-- Of two episodes, the one decided first enters last. -/
def crossedLegs : List EpisodeLeg := [ { sampleLeg 1 1 .authorized with
    episodeKey := "1", entryTime := 5, exitTime := 6, times := by decide },
  { sampleLeg 2 1 .authorized with
    episodeKey := "2", decisionTime := 2, entryTime := 3, exitTime := 4
    times := by decide }]

theorem crossed_complete : OneShape crossedLegs ∧ OneLegEach crossedLegs := by
  constructor
  · show ∀ a ∈ crossedLegs, ∀ b ∈ crossedLegs, a.episodeKey = b.episodeKey → a.shape = b.shape
    decide
  · show ∀ leg ∈ crossedLegs, ((roster crossedLegs leg.episodeKey).map (·.instrumentId)).Nodup
    decide

/-- Two disjoint episodes are taken for overlapping. -/
theorem crossed_rejected : (OneShape crossedLegs ∧ OneLegEach crossedLegs ∧ ∀ leg ∈ crossedLegs,
        ((roster crossedLegs leg.episodeKey).map (·.proposedWeight)).sum ≤ 1)
    ∧ buildEpisodePath samplePolicy crossedLegs = .error (.valueError
        "overlapping episode capital occupation is unsupported")
    ∧ ¬ ((∃ episodes, buildEpisodePath samplePolicy crossedLegs = .ok episodes)
      ↔ ArmsDisjoint crossedLegs) := by
  have herror : buildEpisodePath samplePolicy crossedLegs = .error (.valueError
      "overlapping episode capital occupation is unsupported") := by
    decide +kernel
  have hdisjoint : ArmsDisjoint crossedLegs := by
    show ∀ a ∈ crossedLegs, ∀ b ∈ crossedLegs, a.armKey = b.armKey →
      a.episodeKey ≠ b.episodeKey → Disjoint (Set.Ico a.entryTime a.exitTime)
          (Set.Ico b.entryTime b.exitTime)
    simp only [Set.Ico_disjoint_Ico]
    decide
  refine ⟨⟨crossed_complete.1, crossed_complete.2, by decide +kernel⟩, herror, fun h => ?_⟩
  obtain ⟨episodes, hpath⟩ := h.mpr hdisjoint
  rw [herror] at hpath
  cases hpath

/-- The two do not enter in the order of their decisions. -/
theorem overlap_exact_iff_crossed :
    ((∃ episodes, buildEpisodePath samplePolicy crossedLegs = .ok episodes)
        ↔ ArmsDisjoint crossedLegs)
      ↔ (ArmsDisjoint crossedLegs → EntersInOrder crossedLegs
        ∧ crossedLegs ≠ [] ∧ (crossedLegs.map (·.observationId)).Nodup
        ∧ (∀ leg ∈ crossedLegs, Allocated samplePolicy (roster crossedLegs leg.episodeKey))
        ∧ ∀ leg ∈ crossedLegs, Closable samplePolicy (roster crossedLegs leg.episodeKey)) :=
  overlap_exact_iff samplePolicy crossedLegs crossed_complete.1 crossed_complete.2

end MarketRegimeAlpha.ResearchQualification
