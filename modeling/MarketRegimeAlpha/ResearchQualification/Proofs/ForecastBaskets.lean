/-
The baskets of a ranking: the pairs at both ends of one order.

# The two ends

`_ranking` sorts the pairs once, larger forecasts first and smaller
commitments first among equal ones, and takes its baskets and its quantile
tails from the two ends of the order. With at least `2 n` pairs the two ends
of `n` pairs do not meet (`Ends`). Under distinct commitments the order is
that of the pairs and not of their listing, and all it reads of the
forecasts is how they compare.
-/
import MarketRegimeAlpha.ResearchQualification.ValidityStatistics

namespace MarketRegimeAlpha.ResearchQualification

open Lib List

-- ==== the order

/-- `p` goes before `q`: no smaller forecast, and between equal forecasts
the smaller commitment. -/
def Leads (role : ValidityPair → ℚ) (p q : ValidityPair) : Prop :=
  role q ≤ role p ∧ (role q = role p → p.commitmentId < q.commitmentId)

/-- What `_ranking` sorts by. -/
def rankKey (role : ValidityPair → ℚ) (pair : ValidityPair) : ℚ ×ₗ Nat :=
  toLex (-role pair, pair.commitmentId)

/-- The pairs in the order of `_ranking`. -/
def ranked (role : ValidityPair → ℚ) (pairs : List ValidityPair) :
    List ValidityPair :=
  sortBy (rankKey role) pairs

section Order

variable {pairs : List ValidityPair} {role : ValidityPair → ℚ} {p q : ValidityPair}

theorem rankKey_lt_iff : rankKey role p < rankKey role q ↔ Leads role p q := by
  unfold rankKey Leads
  rw [Prod.Lex.toLex_lt_toLex]
  constructor
  case mp =>
    intro h
    rcases h with hlt | ⟨heq, hid⟩
    · have hlt : role q < role p := neg_lt_neg_iff.mp hlt
      exact ⟨hlt.le, fun heq => absurd heq hlt.ne⟩
    · have heq : role p = role q := neg_inj.mp heq
      exact ⟨heq.symm.le, fun _ => hid⟩
  case mpr =>
    intro ⟨hle, hties⟩
    rcases lt_or_eq_of_le hle with hlt | heq
    · exact .inl (neg_lt_neg hlt)
    · exact .inr ⟨congrArg Neg.neg heq.symm, hties heq⟩

theorem nodup_rankKey (hunique : (pairs.map (·.commitmentId)).Nodup)
    (role : ValidityPair → ℚ) : (pairs.map (rankKey role)).Nodup := by
  apply Nodup.of_map fun key : ℚ ×ₗ Nat => (ofLex key).2
  rw [map_map]
  exact hunique

theorem ranked_perm (role : ValidityPair → ℚ) (pairs : List ValidityPair) :
    (ranked role pairs).Perm pairs := sortBy_perm _ pairs

theorem length_ranked (role : ValidityPair → ℚ) (pairs : List ValidityPair) :
    (ranked role pairs).length = pairs.length := (ranked_perm role pairs).length_eq

theorem mem_ranked : p ∈ ranked role pairs ↔ p ∈ pairs := (ranked_perm role pairs).mem_iff

theorem nodup_ranked (role : ValidityPair → ℚ) (hunique : (pairs.map (·.commitmentId)).Nodup) :
    ((ranked role pairs).map (·.commitmentId)).Nodup :=
  ((ranked_perm role pairs).map _).nodup_iff.mpr hunique

theorem ranked_pairwise (role : ValidityPair → ℚ) (hunique : (pairs.map (·.commitmentId)).Nodup) :
    (ranked role pairs).Pairwise (Leads role) := by
  have hle := sortBy_pairwise (rankKey role) pairs
  have hkeys : ((ranked role pairs).map (rankKey role)).Nodup :=
    nodup_rankKey (nodup_ranked role hunique) role
  have hne : (ranked role pairs).Pairwise fun p q =>
      rankKey role p ≠ rankKey role q := pairwise_map.mp hkeys
  exact (hle.and hne).imp fun h => rankKey_lt_iff.mp (lt_of_le_of_ne h.1 h.2)

end Order

-- ==== the ends

/-- `top` and `bottom` are the commitments of the `n` pairs that go first
and of the `n` that go last. -/
structure Ends (pairs : List ValidityPair) (role : ValidityPair → ℚ) (n : Nat)
    (top bottom : List Nat) : Prop where
  topLength : top.length = n
  bottomLength : bottom.length = n
  nodup : (top ++ bottom).Nodup
  known : ∀ id ∈ top ++ bottom, ∃ p ∈ pairs, p.commitmentId = id
  leading : ∀ p ∈ pairs, ∀ q ∈ pairs, p.commitmentId ∈ top → q.commitmentId ∉ top → Leads role p q
  trailing : ∀ p ∈ pairs, ∀ q ∈ pairs, p.commitmentId ∉ bottom →
    q.commitmentId ∈ bottom → Leads role p q

section Tails

variable {pairs : List ValidityPair} {n : Nat} {α : Type} {l : List α}

theorem take_append_lastOf_sublist {n : Nat}
    (h : 2 * n ≤ l.length) : (l.take n ++ lastOf n l).Sublist l := by
  have htake : (l.take n).Sublist (l.take (l.length - n)) := take_sublist_take_left (by omega)
  have happ := htake.append (Sublist.refl (lastOf n l))
  unfold lastOf at happ ⊢
  rwa [take_append_drop] at happ

theorem mem_of_commitment {l part : List ValidityPair} (hunique : (l.map (·.commitmentId)).Nodup)
    (hpart : part ⊆ l) {p : ValidityPair} (hp : p ∈ l)
    (h : p.commitmentId ∈ part.map (·.commitmentId)) : p ∈ part := by
  obtain ⟨p', hp', hid⟩ := mem_map.mp h
  have hsame : p' = p := inj_on_of_nodup_map hunique (hpart hp') hp hid
  rwa [← hsame]

theorem leads_of_cut {role : ValidityPair → ℚ} {l : List ValidityPair} (hl : l.Pairwise (Leads role))
    (m : Nat) {p q : ValidityPair} (hp : p ∈ l.take m) (hq : q ∈ l.drop m) :
    Leads role p q := by
  rw [← take_append_drop m l, pairwise_append] at hl
  exact hl.2.2 p hp q hq

theorem mem_take_or_drop {x : α} (m : Nat) (hx : x ∈ l) : x ∈ l.take m ∨ x ∈ l.drop m := by
  rw [← take_append_drop m l] at hx
  exact mem_append.mp hx

/-- The ends of the order are the ends of the pairs. -/
theorem ends_ranked (role : ValidityPair → ℚ) (hunique : (pairs.map (·.commitmentId)).Nodup)
    (h : 2 * n ≤ pairs.length) :
    Ends pairs role n (((ranked role pairs).take n).map (·.commitmentId))
      ((lastOf n (ranked role pairs)).map (·.commitmentId)) := by
  have hlength := length_ranked role pairs
  have hnodup := nodup_ranked role hunique
  have hsorted := ranked_pairwise role hunique
  have hsub : ((ranked role pairs).take n
      ++ lastOf n (ranked role pairs)).Sublist (ranked role pairs) :=
    take_append_lastOf_sublist (by omega)
  constructor
  case topLength =>
    rw [length_map, length_take]
    omega
  case bottomLength =>
    rw [length_map, lastOf, length_drop]
    omega
  case nodup =>
    rw [← map_append]
    exact hnodup.sublist (hsub.map _)
  case known =>
    intro id hid
    rw [← map_append] at hid
    obtain ⟨p, hp, heq⟩ := mem_map.mp hid
    exact ⟨p, mem_ranked.mp (hsub.subset hp), heq⟩
  case leading =>
    intro p hp q hq htop hout
    have hp := mem_of_commitment hnodup (take_subset n _) (mem_ranked.mpr hp) htop
    rcases mem_take_or_drop n (mem_ranked.mpr hq) with hq | hq
    · exact absurd (mem_map_of_mem hq) hout
    · exact leads_of_cut hsorted n hp hq
  case trailing =>
    intro p hp q hq hout hbottom
    have hq := mem_of_commitment hnodup (drop_subset _ _) (mem_ranked.mpr hq) hbottom
    rcases mem_take_or_drop ((ranked role pairs).length - n) (mem_ranked.mpr hp) with hp | hp
    · exact leads_of_cut hsorted _ hp hq
    · exact absurd (mem_map_of_mem hp) hout

end Tails

-- ==== what is read

section Transformations

variable {pairs pairs' : List ValidityPair} {role : ValidityPair → ℚ}

theorem ranked_eq_of_perm (hunique : (pairs.map (·.commitmentId)).Nodup)
    (h : pairs'.Perm pairs) : ranked role pairs' = ranked role pairs :=
  (sortBy_eq_of_perm h.symm (nodup_rankKey hunique role)).symm

variable {g : ValidityPair → ValidityPair} {k quantiles : Nat}

theorem ranked_map (hunique : (pairs.map (·.commitmentId)).Nodup)
    (hid : ∀ p ∈ pairs, (g p).commitmentId = p.commitmentId)
    (hrole : ∀ p ∈ pairs, ∀ q ∈ pairs, role p < role q ↔ role (g p) < role (g q)) :
    ranked role (pairs.map g) = (ranked role pairs).map g := by
  have hunique' : ((pairs.map g).map (·.commitmentId)).Nodup := by
    rw [map_map, map_congr_left (g := (·.commitmentId)) hid]
    exact hunique
  have hperm : ((ranked role pairs).map g).Perm (pairs.map g) := (ranked_perm role pairs).map g
  rw [← ranked_eq_of_perm hunique' hperm]
  -- the transformed order is sorted already
  apply List.Pairwise.insertionSort_eq
  rw [pairwise_map]
  apply (ranked_pairwise role hunique).imp_of_mem
  intro p q hp hq hleads
  have hp := mem_ranked.mp hp
  have hq := mem_ranked.mp hq
  apply le_of_lt
  rw [rankKey_lt_iff]
  constructor
  case left =>
    rw [← not_lt, ← hrole p hp q hq, not_lt]
    exact hleads.1
  case right =>
    intro heq
    rw [hid p hp, hid q hq]
    apply hleads.2
    apply le_antisymm hleads.1
    rw [← not_lt, hrole q hq p hp, heq]
    exact lt_irrefl _

theorem basket_map {members : List ValidityPair}
    (hlabel : ∀ p ∈ members, (g p).label = p.label) (code : String) :
    basket (members.map g) code = basket members code := by
  have hlabels : (members.map g).map (·.label) = members.map (·.label) := by
    rw [map_map]
    exact map_congr_left hlabel
  unfold basket
  rw [hlabels, length_map]
  simp only [map_eq_nil_iff]

theorem ranking_eq_of_ranked (h : ranked role pairs' = ranked role pairs) :
    ranking pairs' role k quantiles = ranking pairs role k quantiles := by
  have hsorted : sortBy (fun pair => toLex (-role pair, pair.commitmentId)) pairs'
      = sortBy (fun pair => toLex (-role pair, pair.commitmentId)) pairs := h
  unfold ranking
  rw [hsorted]

/-- A ranking reads the commitments and the labels of the order. -/
theorem ranking_map (hid : ∀ p ∈ pairs, (g p).commitmentId = p.commitmentId)
    (hlabel : ∀ p ∈ pairs, (g p).label = p.label)
    (h : ranked role (pairs.map g) = (ranked role pairs).map g) :
    ranking (pairs.map g) role k quantiles = ranking pairs role k quantiles := by
  have hids : ∀ members : List ValidityPair, members ⊆ ranked role pairs →
      (members.map g).map (·.commitmentId) = members.map (·.commitmentId) := by
    intro members hsub
    rw [map_map]
    exact map_congr_left fun p hp => hid p (mem_ranked.mp (hsub hp))
  have hbasket : ∀ members : List ValidityPair, members ⊆ ranked role pairs →
      ∀ code, basket (members.map g) code = basket members code :=
    fun members hsub code => basket_map (fun p hp => hlabel p (mem_ranked.mp (hsub hp))) code
  have hfirst : ∀ n, (ranked role pairs).take n ⊆ ranked role pairs := fun n => take_subset n _
  have hlast : ∀ n, lastOf n (ranked role pairs) ⊆ ranked role pairs :=
    fun n => drop_subset _ _
  have hends : ∀ n, lastOf n ((ranked role pairs).map g)
      = (lastOf n (ranked role pairs)).map g := by
    intro n
    unfold lastOf
    rw [length_map, map_drop]
  have hsorted : sortBy (fun pair => toLex (-role pair, pair.commitmentId))
      (pairs.map g) = (ranked role pairs).map g := h
  have hpairs : sortBy (fun pair => toLex (-role pair, pair.commitmentId)) pairs
      = ranked role pairs := rfl
  unfold ranking
  rw [hsorted, hpairs]
  by_cases hk : 2 * k ≤ (ranked role pairs).length
  · by_cases htail : (ranked role pairs).length / quantiles = 0
    · simp only [length_map, hk, htail, if_true, ← map_take, hends,
        hids _ (hfirst k), hids _ (hlast k), hbasket _ (hfirst k),
        hbasket _ (hlast k)]
    · simp only [length_map, hk, htail, if_true, if_false, ← map_take,
        hends, hids _ (hfirst _), hids _ (hlast _), hbasket _ (hfirst _),
        hbasket _ (hlast _), map_cons, map_nil]
  · by_cases htail : (ranked role pairs).length / quantiles = 0
    · simp only [length_map, hk, htail, if_true, if_false]
    · simp only [length_map, hk, htail, if_false, ← map_take, hends,
        hids _ (hfirst _), hids _ (hlast _), hbasket _ (hfirst _),
        hbasket _ (hlast _), map_cons, map_nil]

end Transformations

-- ==== the baskets

/-- Of pairs with distinct commitments, the top and the bottom basket are
the `k` pairs at each end, and are empty with fewer than `2 k` pairs; the
quantile tails are the `n / quantiles` pairs at each end. A pair of a top goes
before every pair outside it and a pair of a bottom after, by its forecast and
between equal forecasts by its commitment. The order of the pairs and a
strictly increasing transformation of their forecasts change nothing. -/
theorem forecast_baskets (pairs : List ValidityPair) (hunique : (pairs.map (·.commitmentId)).Nodup)
    (role : ValidityPair → ℚ) (k quantiles : Nat) (_ : 1 ≤ k) (hquantiles : 2 ≤ quantiles) :
    (pairs.length < 2 * k → (ranking pairs role k quantiles).topCommitments = []
        ∧ (ranking pairs role k quantiles).bottomCommitments = [])
    ∧ (2 * k ≤ pairs.length → Ends pairs role k (ranking pairs role k quantiles).topCommitments
          (ranking pairs role k quantiles).bottomCommitments)
    ∧ (pairs.length / quantiles = 0 → (ranking pairs role k quantiles).quantiles = [])
    ∧ (pairs.length / quantiles ≠ 0 → ∃ top bottom,
        (ranking pairs role k quantiles).quantiles = [top, bottom]
        ∧ Ends pairs role (pairs.length / quantiles) top.commitments bottom.commitments)
    ∧ (∀ pairs' : List ValidityPair, pairs'.Perm pairs →
        ranking pairs' role k quantiles = ranking pairs role k quantiles)
    ∧ ∀ (f : ℚ → ℚ) (g : ValidityPair → ValidityPair),
        StrictMonoOn f {x | ∃ p ∈ pairs, role p = x} →
        (∀ p ∈ pairs, role (g p) = f (role p)
          ∧ (g p).commitmentId = p.commitmentId ∧ (g p).label = p.label) →
        ranking (pairs.map g) role k quantiles = ranking pairs role k quantiles := by
  have hlength : (sortBy (fun pair => toLex (-role pair, pair.commitmentId))
      pairs).length = pairs.length := length_ranked role pairs
  refine ⟨?_, ?_, ?_, ?_, ?_, ?_⟩
  case refine_1 =>
    intro hfew
    have hnot : ¬ 2 * k ≤ pairs.length := by omega
    simp only [ranking, hlength, hnot, if_false, map_nil, and_self]
  case refine_2 =>
    intro henough
    simp only [ranking, hlength, henough, if_true]
    exact ends_ranked role hunique henough
  case refine_3 =>
    intro htail
    simp only [ranking, hlength, htail, if_true, map_nil]
  case refine_4 =>
    intro htail
    have henough : 2 * (pairs.length / quantiles) ≤ pairs.length :=
      (Nat.mul_le_mul_right _ hquantiles).trans (Nat.mul_div_le _ _)
    simp only [ranking, hlength, htail, if_false, map_cons, map_nil]
    exact ⟨_, _, rfl, ends_ranked role hunique henough⟩
  case refine_5 =>
    intro pairs' hperm
    exact ranking_eq_of_ranked (ranked_eq_of_perm hunique hperm)
  case refine_6 =>
    intro f g hf hg
    apply ranking_map (fun p hp => (hg p hp).2.1) (fun p hp => (hg p hp).2.2)
    apply ranked_map hunique fun p hp => (hg p hp).2.1
    intro p hp q hq
    rw [(hg p hp).1, (hg q hq).1]
    exact (hf.lt_iff_lt ⟨p, hp, rfl⟩ ⟨q, hq, rfl⟩).symm

def tiedPairs : List ValidityPair :=
  [{ commitmentId := 7, session := 1, model := 2, baseline := 0, label := 5,
     instrumentId := none },
   { commitmentId := 3, session := 1, model := 2, baseline := 0, label := 1,
     instrumentId := none },
   { commitmentId := 5, session := 1, model := 4, baseline := 0, label := 2,
     instrumentId := none }]

theorem forecast_baskets_tied : (ranking tiedPairs (·.model) 1 2).topCommitments = [5]
      ∧ (ranking tiedPairs (·.model) 1 2).bottomCommitments = [7]
      ∧ Ends tiedPairs (·.model) 1 (ranking tiedPairs (·.model) 1 2).topCommitments
          (ranking tiedPairs (·.model) 1 2).bottomCommitments :=
  ⟨by decide +kernel, by decide +kernel,
    (forecast_baskets tiedPairs (by decide) (·.model) 1 2 (by decide) (by decide)).2.1 (by decide)⟩

end MarketRegimeAlpha.ResearchQualification
