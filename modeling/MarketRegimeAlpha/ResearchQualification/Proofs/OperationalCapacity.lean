/-
A scenario is conservative, and larger budgets never make it better.

The slots that are kept are the smallest: whichever slots the downtime
buffer loses, those left are no fewer and hold no fewer observations
(`kept_least`). A larger budget makes fewer windows `READY`, so it takes
copies of one slot away, and what was kept of the larger roster, without
them, is a way to lose the buffer in the smaller one (`kept_mono`).
-/
import MarketRegimeAlpha.ResearchQualification.OperationalCapacity
import Mathlib.Tactic.Positivity

namespace MarketRegimeAlpha.ResearchQualification.OperationalCapacity

open Lib List

variable {capacity : Capacity} {slots slots' : List Nat} {policy : Option BufferPolicy}

-- ==== the slots that are kept

/-- The `k` least of a sorted list add up to no more than any `k` of it. -/
theorem sum_take_le {l r : List Nat} (hl : l.Pairwise (· ≤ ·)) (h : r.Sublist l) {k : Nat}
    (hk : k ≤ r.length) : (l.take k).sum ≤ r.sum := by
  induction h generalizing k with
  | slnil => simp
  | @cons r l a h ih =>
    obtain ⟨hleast, hl⟩ := pairwise_cons.mp hl
    refine le_trans ?_ (ih hl hk)
    cases k with
    | zero => simp
    | succ k =>
      have hlt : k < l.length := hk.trans h.length_le
      rw [take_succ_cons, sum_cons, sum_take_succ l k hlt]
      have := hleast _ (getElem_mem hlt)
      omega
  | @cons_cons r l a h ih =>
    cases k with
    | zero => simp
    | succ k =>
      have := ih hl.of_cons (Nat.le_of_succ_le_succ hk)
      simpa using this

/-- `downtime_buffer_sessions`, none without a policy. -/
def bufferSessions (policy : Option BufferPolicy) : Nat :=
  (policy.map (·.downtimeBufferSessions)).getD 0

theorem keptSlots_eq_take : keptSlots policy slots
    = (sortBy id slots).take (slots.length - bufferSessions policy) := by
  have hlength := (sortBy_perm id slots).length_eq
  cases policy with
  | none => simp [keptSlots, bufferSessions, ← hlength]
  | some policy => simp [keptSlots, bufferSessions, hlength]

/-- Whichever slots the buffer loses, those left are no fewer than those
kept, and hold no fewer observations. -/
theorem kept_least {left lost : Multiset Nat} (hslots : left + lost = slots)
    (hlost : lost.card ≤ bufferSessions policy) :
    (keptSlots policy slots).length ≤ left.card ∧ (keptSlots policy slots).sum ≤ left.sum := by
  have hcard := congrArg Multiset.card hslots
  rw [Multiset.card_add, Multiset.coe_card] at hcard
  have hle : left ≤ (sortBy id slots : List Nat) := by
    rw [Multiset.coe_eq_coe.mpr (sortBy_perm id slots), ← hslots]
    exact Multiset.le_add_right _ _
  induction left using Quotient.inductionOn with | h left =>
  obtain ⟨sub, hperm, hsub⟩ := Multiset.coe_le.mp hle
  have hk : slots.length - bufferSessions policy ≤ sub.length := by
    rw [hperm.length_eq]
    simp at hcard
    omega
  rw [keptSlots_eq_take]
  constructor
  · simp [hperm.length_eq] at hk ⊢
    omega
  · rw [Multiset.quot_mk_to_coe, Multiset.sum_coe, ← hperm.sum_eq]
    exact sum_take_le (by simpa using sortBy_pairwise id slots) hsub hk

theorem kept_add_dropped (policy : Option BufferPolicy) (slots : List Nat) :
    ∃ dropped : Multiset Nat, (keptSlots policy slots : Multiset Nat) + dropped = slots
      ∧ dropped.card ≤ bufferSessions policy := by
  refine ⟨(sortBy id slots).drop (slots.length - bufferSessions policy), ?_, ?_⟩
  · rw [keptSlots_eq_take, Multiset.coe_add, take_append_drop]
    exact Multiset.coe_eq_coe.mpr (sortBy_perm id slots)
  · have hlength := (sortBy_perm id slots).length_eq
    simp [hlength]
    omega

theorem kept_mono (h : (slots' : Multiset Nat) ≤ slots) :
    (keptSlots policy slots').length ≤ (keptSlots policy slots).length
      ∧ (keptSlots policy slots').sum ≤ (keptSlots policy slots).sum := by
  obtain ⟨dropped, hslots, hdropped⟩ := kept_add_dropped policy slots
  have hleft : (slots' : Multiset Nat) - dropped ≤ keptSlots policy slots := by
    rw [tsub_le_iff_right, hslots]
    exact h
  have hlost : ((slots' : Multiset Nat) ∩ dropped).card ≤ bufferSessions policy :=
    (Multiset.card_le_card (Multiset.inter_le_right)).trans hdropped
  obtain ⟨hlength, hsum⟩ := kept_least (Multiset.sub_add_inter _ _) hlost
  obtain ⟨rest, hrest⟩ := Multiset.le_iff_exists_add.mp hleft
  have hcards := congrArg Multiset.card hrest
  have hsums := congrArg Multiset.sum hrest
  simp at hcards hsums
  omega

-- ==== the windows

/-- Whichever slots the buffer loses, the scenario counts no more
sessions and observations than are left, and are not missing. -/
def Conservative (capacity : Capacity) (scenario : Scenario) : Prop :=
  ∀ budget ∈ scenario.budgetCapacity, ∀ members ∈ capacity.expectedMembersPerSession,
    ∀ sessions ∈ capacity.observedSessions, ∀ observations ∈ capacity.observedObservations,
    ∀ left lost : Multiset Nat, left + lost = feasibleSlots capacity members scenario.windows →
      lost.card ≤ bufferSessions capacity.policy →
      budget.sessions ≤ sessions + left.card ∧ (budget.observations : ℚ)
          ≤ observations + left.sum * (1 - missingFraction capacity.policy)

/-- The windows under larger budgets: the same ones, none newly
`READY`. -/
def NoneReadier (windows windows' : List Window) : Prop :=
  List.Forall₂ (fun window window' => window'.targetSession = window.targetSession
    ∧ (window.state = some .expectedInsufficient → window'.state ≠ some .ready)) windows windows'

def NoneLarger (budget budget' : Option BudgetCapacity) : Prop :=
  Option.Rel (fun b b' => b'.sessions ≤ b.sessions ∧ b'.observations ≤ b.observations)
    budget budget'

/-- A scenario under larger budgets is no better. -/
structure NoBetter (scenario scenario' : Scenario) : Prop where
  windows : NoneReadier scenario.windows scenario'.windows
  budgets : NoneLarger scenario.budgetCapacity scenario'.budgetCapacity
  state : scenario'.state = .ready → scenario.state = .ready

theorem missingFraction_le_one (policy : Option BufferPolicy) : 0 ≤ 1 - missingFraction policy := by
  cases policy with
  | none => simp [missingFraction]
  | some policy => exact sub_nonneg.mpr policy.fraction_unit.2

theorem conservative_budget {windows : List Window} {s : Scenario} (hwindows : s.windows = windows)
    (hbudget : s.budgetCapacity = budgetCapacity capacity windows) :
    Conservative capacity s := by
  intro budget hmem members hmembers sessions hsessions observations hobservations left lost
    hslots hlost
  rw [hwindows] at hslots
  obtain ⟨hlength, hsum⟩ := kept_least hslots hlost
  have hfraction := missingFraction_le_one capacity.policy
  simp only [hbudget, budgetCapacity, Option.mem_def.mp hmembers, Option.mem_def.mp hsessions,
    Option.mem_def.mp hobservations, Option.bind_eq_bind, Option.bind_some, Option.pure_def,
    Option.mem_def, Option.some.injEq] at hmem
  subst hmem
  refine ⟨Nat.add_le_add_left hlength _, ?_⟩
  have hfloor := Nat.floor_le (mul_nonneg (Nat.cast_nonneg (α := ℚ)
    (keptSlots capacity.policy (feasibleSlots capacity members windows)).sum) hfraction)
  have hcounts := mul_le_mul_of_nonneg_right (Nat.cast_le (α := ℚ).mpr hsum) hfraction
  exact (Nat.cast_add _ _).trans_le ((add_le_add_iff_left _).mpr (hfloor.trans hcounts))

section Larger

variable {collection collection' backup backup' publication publication' grace : ℚ}

theorem exceeded_mono (hcollection : collection ≤ collection') (hbackup : backup ≤ backup')
    (hpublication : publication ≤ publication') {window : Window}
    (h : (exceeded collection backup publication grace window).isSome) :
    (exceeded collection' backup' publication' grace window).isSome := by
  unfold exceeded at h ⊢
  split
  · rfl
  · next hwindow =>
      split
      · rfl
      · next hgrace =>
          rw [if_neg (by linarith), if_neg (by linarith)] at h
          cases h

def judgedAll (collection backup publication grace : ℚ) (windows : List Window) : List Window :=
  windows.map fun window => window.judged (exceeded collection backup publication grace window)

variable (hcollection : collection ≤ collection') (hbackup : backup ≤ backup')
  (hpublication : publication ≤ publication')

include hcollection hbackup hpublication

variable (windows : List Window)

theorem noneReadier_judged : NoneReadier (judgedAll collection backup publication grace windows)
      (judgedAll collection' backup' publication' grace windows) := by
  unfold NoneReadier judgedAll
  rw [forall₂_map_left_iff, forall₂_map_right_iff, forall₂_same]
  intro window _
  refine ⟨rfl, fun hstate => ?_⟩
  have h : (exceeded collection backup publication grace window).isSome := by
    by_contra hnone
    simp [Window.judged, hnone] at hstate
  simp [Window.judged, exceeded_mono hcollection hbackup hpublication h]

/-- No more windows are `READY`. -/
theorem ready_le :
    (judgedAll collection' backup' publication' grace windows).countP (·.state = some .ready)
      ≤ (judgedAll collection backup publication grace windows).countP (·.state = some .ready) := by
  unfold judgedAll
  rw [countP_map, countP_map]
  refine countP_mono_left fun window _ hready => ?_
  have h : ¬ (exceeded collection' backup' publication' grace window).isSome := by
    intro hsome
    simp [Window.judged, hsome] at hready
  have h' : ¬ (exceeded collection backup publication grace window).isSome :=
    mt (exceeded_mono hcollection hbackup hpublication) h
  simp [Window.judged, h']

theorem noneLarger_judged :
    NoneLarger (budgetCapacity capacity (judgedAll collection backup publication grace windows))
      (budgetCapacity capacity (judgedAll collection' backup' publication' grace windows)) := by
  unfold budgetCapacity
  cases capacity.expectedMembersPerSession with
  | none => exact .none
  | some members =>
  cases capacity.observedSessions with
  | none => exact .none
  | some sessions =>
  cases capacity.observedObservations with
  | none => exact .none
  | some observations =>
    have hle : (feasibleSlots capacity members
        (judgedAll collection' backup' publication' grace windows) : Multiset Nat)
        ≤ feasibleSlots capacity members
          (judgedAll collection backup publication grace windows) := by
      unfold feasibleSlots
      rw [← Multiset.coe_add, ← Multiset.coe_add]
      refine add_le_add_left ?_ _
      exact Multiset.coe_le.mpr (replicate_sublist_replicate _ |>.mpr
        (ready_le hcollection hbackup hpublication windows)).subperm
    obtain ⟨hlength, hsum⟩ :=
      (kept_mono hle : (keptSlots capacity.policy _).length ≤ _ ∧ _)
    have hfraction := missingFraction_le_one capacity.policy
    refine .some ⟨Nat.add_le_add_left hlength _, Nat.add_le_add_left (Nat.floor_le_floor ?_) _⟩
    exact mul_le_mul_of_nonneg_right (Nat.cast_le.mpr hsum) hfraction

end Larger

/-- Smaller counts never settle a scenario `READY`. -/
theorem settled_ready {budget budget' : Option BudgetCapacity} (h : NoneLarger budget budget')
    {state : State} {reasons reasons' : List String} (hstate : state ≠ .ready)
    (hready : (settled capacity budget' state reasons').1 = .ready) :
    (settled capacity budget state reasons).1 = .ready := by
  cases h with
  | none => exact absurd hready hstate
  | some h =>
    unfold settled at hready ⊢
    dsimp only at hready ⊢
    split at hready
    · cases hready
    · next hfloor =>
        rw [if_neg (by omega)]
        split at hready
        · next hpass => rw [if_pos hpass]
        · exact absurd hready hstate

-- ==== the scenario

def judgedScenario (capacity : Capacity) (collection backup publication grace : ℚ)
    (windows : List Window) (initial : State) (reasons : List String) : Scenario :=
  let judged := judgedAll collection backup publication grace windows
  let budget := budgetCapacity capacity judged
  let (state, reasons) := settled capacity budget initial reasons
  scenario capacity ⟨some collection, some backup, some publication⟩ state reasons budget judged

variable {calendar : List CalendarRow} {observedAt grace : ℚ}

/-- With all budgets measured a scenario has no windows, whatever the
budgets are, or judges the same ones under any. -/
theorem operationalCapacity_measured (capacity : Capacity) (observedAt : ℚ)
    (hgrace : 0 < grace) (hdistinct : (calendar.map (·.sessionId)).Nodup) :
    ∃ windows reasons,
      (∀ collection backup publication : ℚ, 0 < collection → 0 < backup → 0 < publication →
        operationalCapacity capacity calendar observedAt
            ⟨some collection, some backup, some publication⟩ grace
          = .ok (scenario capacity ⟨some collection, some backup, some publication⟩
            (initialState capacity) reasons none []))
      ∨ ∀ collection backup publication : ℚ, 0 < collection → 0 < backup → 0 < publication →
        operationalCapacity capacity calendar observedAt
            ⟨some collection, some backup, some publication⟩ grace
          = .ok (judgedScenario capacity collection backup publication grace windows
            (initialState capacity) reasons) := by
  obtain ⟨rows, hsorted⟩ : ∃ rows, sortBy (·.openAt) calendar = rows := ⟨_, rfl⟩
  have hrows : (rows.map (·.sessionId)).Nodup := by
    rw [← hsorted]
    exact ((sortBy_perm _ calendar).map _).nodup_iff.mpr hdistinct
  by_cases hvalid : capacity.validFrom = none
  · refine ⟨[], capturedReasons capacity rows ++ ["UNMEASURED_" ++ "model_use_valid_from".toUpper],
      .inl ?_⟩
    intro collection backup publication hcollection hbackup hpublication
    simp [operationalCapacity, requireBudget, require, hcollection, hbackup, hpublication, hgrace,
      hsorted, hrows, hvalid, Budgets.missing, capturedWindows]
  refine ⟨capturedWindows capacity rows observedAt grace, capturedReasons capacity rows, ?_⟩
  by_cases hwindows : capturedWindows capacity rows observedAt grace = []
  · refine .inl ?_
    intro collection backup publication hcollection hbackup hpublication
    simp [operationalCapacity, requireBudget, require, hcollection, hbackup, hpublication, hgrace,
      hsorted, hrows, hvalid, Budgets.missing, hwindows]
  · refine .inr ?_
    intro collection backup publication hcollection hbackup hpublication
    simp [operationalCapacity, requireBudget, require, hcollection, hbackup, hpublication, hgrace,
      hsorted, hrows, hvalid, Budgets.missing, hwindows, Budgets.measured]
    rfl

/-- A scenario is conservative, and under larger budgets it is no
better. -/
theorem operationalCapacity_conservative {collection collection' backup backup' publication
    publication' : ℚ} (capacity : Capacity) (observedAt : ℚ)
    (hpositive : 0 < collection ∧ 0 < backup ∧ 0 < publication ∧ 0 < grace)
    (hlarger : collection ≤ collection' ∧ backup ≤ backup' ∧ publication ≤ publication')
    (hdistinct : (calendar.map (·.sessionId)).Nodup) :
    ∃ s s', operationalCapacity capacity calendar observedAt
          ⟨some collection, some backup, some publication⟩ grace = .ok s
      ∧ operationalCapacity capacity calendar observedAt
          ⟨some collection', some backup', some publication'⟩ grace = .ok s'
      ∧ Conservative capacity s ∧ NoBetter s s' := by
  obtain ⟨hcollection, hbackup, hpublication, hgrace⟩ := hpositive
  obtain ⟨hc, hb, hp⟩ := hlarger
  have hinitial : initialState capacity ≠ .ready := by
    unfold initialState
    split <;> decide
  obtain ⟨windows, reasons, h | h⟩ :=
    operationalCapacity_measured capacity observedAt hgrace hdistinct
  · refine ⟨_, _, h _ _ _ hcollection hbackup hpublication, h _ _ _ (hcollection.trans_le hc)
      (hbackup.trans_le hb) (hpublication.trans_le hp), ?_, .nil, .none, fun h => h⟩
    intro budget hnone
    cases hnone
  · refine ⟨_, _, h _ _ _ hcollection hbackup hpublication, h _ _ _ (hcollection.trans_le hc)
      (hbackup.trans_le hb) (hpublication.trans_le hp), conservative_budget rfl rfl, ?_⟩
    exact ⟨noneReadier_judged hc hb hp windows, noneLarger_judged hc hb hp windows,
      settled_ready (noneLarger_judged hc hb hp windows) hinitial⟩

def sampleCalendar : List CalendarRow :=
  [⟨"friday", "2026-09-11", 0, 19800⟩, ⟨"monday", "2026-09-14", 259200, 279000⟩]

def sampleCapacity : Capacity where
  state := some "PASS"
  reasonCodes := []
  validFrom := some 0
  futureSessionRoster := ["2026-09-14"]
  pendingExactObservationCounts := [30]
  observedSessions := some 0
  observedObservations := some 0
  expectedMembersPerSession := some 32
  policy := some ⟨1, 1 / 10, by norm_num⟩
  minimumSessions := 1
  minimumObservations := 27
  useLifetimeCoverageComplete := true

/-- The sample under budgets of a few minutes, and of a day more. -/
theorem operationalCapacity_conservative_sample :
    ∃ s s', operationalCapacity sampleCapacity sampleCalendar 19800
          ⟨some 60, some 180, some 60⟩ 28800 = .ok s
      ∧ operationalCapacity sampleCapacity sampleCalendar 19800
          ⟨some 86460, some 180, some 60⟩ 28800 = .ok s'
      ∧ Conservative sampleCapacity s ∧ NoBetter s s' :=
  operationalCapacity_conservative sampleCapacity 19800 (by norm_num) (by norm_num) (by decide)

end MarketRegimeAlpha.ResearchQualification.OperationalCapacity
