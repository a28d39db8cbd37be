/-
What the reconciliation of a backtest makes of a set of observations.

# The dictionary of the observations

Observations without a mismatch have distinct expected ids (`mismatchIds_eq_nil`),
so their dictionary is the list of them, and the state of an action is that of its
observation or absent.
-/
import MarketRegimeAlpha.ResearchQualification.BacktestExecution

namespace MarketRegimeAlpha.ResearchQualification.BacktestExecution

open Lib List

variable {run : FrozenBacktestRun} {actions : List BacktestExpectedAction}
  {observations : List BacktestActionObservation} {actionId : Nat}
  {observation : BacktestActionObservation}

/-- The actions have ids of their own, and each depends on ids before its own. -/
structure TopologicallyOrdered (actions : List BacktestExpectedAction) : Prop where
  nodup : (actions.map (·.actionId)).Nodup
  before : ∀ earlier action later, actions = earlier ++ action :: later →
    ∀ dependency ∈ action.dependencyActionIds, dependency ∈ earlier.map (·.actionId)

-- ==== the dictionary

/-- No mismatch: distinct expected ids, and no state that says so. -/
theorem mismatchIds_eq_nil : mismatchIds actions observations = []
    ↔ (observations.map (·.actionId)).Nodup ∧ ∀ observation ∈ observations,
        observation.actionId ∈ actions.map (·.actionId) ∧ observation.state ≠ .mismatch := by
  have hpairs : (observations.map (·.actionId)).Nodup → byId observations
      = observations.map fun observation => (observation.actionId, observation) := by
    intro hnodup
    apply dictOf_eq
    unfold Lib.keys
    rw [map_map]
    exact hnodup
  unfold mismatchIds
  rw [sortedDistinct_eq_nil, append_eq_nil_iff, append_eq_nil_iff]
  constructor
  · rintro ⟨⟨hduplicates, hunexpected⟩, hmismatched⟩
    have hnodup : (observations.map (·.actionId)).Nodup := by
      rw [nodup_iff_count_le_one]
      intro actionId
      by_contra hmany
      have hmem : actionId ∈ observations.map (·.actionId) := count_pos_iff.mp (by omega)
      have hfilter := filter_eq_nil_iff.mp hduplicates actionId hmem
      exact hfilter (decide_eq_true (by omega))
    rw [hpairs hnodup] at hunexpected hmismatched
    refine ⟨hnodup, fun observation hobservation => ⟨?_, fun hstate => ?_⟩⟩
    · have hkey : observation.actionId ∈ Lib.keys (observations.map fun observation =>
          (observation.actionId, observation)) :=
        mem_map_of_mem (mem_map_of_mem hobservation)
      have hfilter := filter_eq_nil_iff.mp hunexpected _ hkey
      by_contra hnot
      exact hfilter (decide_eq_true hnot)
    · have hfilter := filter_eq_nil_iff.mp (map_eq_nil_iff.mp hmismatched) _
        (mem_map_of_mem hobservation)
      exact hfilter (decide_eq_true hstate)
  · rintro ⟨hnodup, hall⟩
    rw [hpairs hnodup]
    refine ⟨⟨?_, ?_⟩, ?_⟩
    · rw [filter_eq_nil_iff]
      intro actionId _ hmany
      have hcount := nodup_iff_count_le_one.mp hnodup actionId
      exact absurd (of_decide_eq_true hmany) (by omega)
    · rw [filter_eq_nil_iff]
      intro actionId hkey hnot
      unfold Lib.keys at hkey
      rw [map_map] at hkey
      obtain ⟨observation, hobservation, rfl⟩ := mem_map.mp hkey
      exact of_decide_eq_true hnot (hall observation hobservation).1
    · rw [map_eq_nil_iff, filter_eq_nil_iff]
      intro item hitem hstate
      obtain ⟨observation, hobservation, rfl⟩ := mem_map.mp hitem
      exact (hall observation hobservation).2 (of_decide_eq_true hstate)

theorem mem_of_lookup_byId (h : (byId observations).lookup actionId = some observation) :
    observation ∈ observations ∧ observation.actionId = actionId := by
  have hitem := (lookup_eq_some_iff (nodup_keys_dictOf _)).mp h
  obtain ⟨other, hother, heq⟩ := mem_map.mp (mem_dictOf hitem)
  cases heq
  exact ⟨hother, rfl⟩

theorem exists_observed (h : stateOf actionId (byId observations) ≠ .absent) :
    ∃ observation ∈ observations, observation.actionId = actionId
        ∧ observation.state = stateOf actionId (byId observations) := by
  unfold stateOf at h ⊢
  split at h
  next => exact absurd rfl h
  next observation hlookup =>
    obtain ⟨hmem, hid⟩ := mem_of_lookup_byId hlookup
    exact ⟨observation, hmem, hid, rfl⟩

theorem stateOf_of_mem (hnodup : (observations.map (·.actionId)).Nodup)
    (h : observation ∈ observations) :
    stateOf observation.actionId (byId observations) = observation.state := by
  have hkeys : (Lib.keys (observations.map fun observation =>
      (observation.actionId, observation))).Nodup := by
    unfold Lib.keys
    rw [map_map]
    exact hnodup
  have hlookup : (byId observations).lookup observation.actionId = some observation := by
    unfold byId
    rw [dictOf_eq hkeys, lookup_eq_some_iff hkeys]
    exact mem_map_of_mem h
  unfold stateOf
  rw [hlookup]

-- ==== what is ready

structure IsReady (actions : List BacktestExpectedAction)
    (observations : List (Nat × BacktestActionObservation))
    (ready : BacktestReadyAction) : Prop where
  expected : ready.action ∈ actions
  incomplete : stateOf ready.action.actionId observations ≠ .matchedComplete
  dependencies : ∀ dependency ∈ ready.action.dependencyActionIds,
    stateOf dependency observations = .matchedComplete
  operation : nextOperation (stateOf ready.action.actionId observations) = some ready.operation

variable {observed : List (Nat × BacktestActionObservation)} {ready : BacktestReadyAction}

theorem readyAction_eq_some {action : BacktestExpectedAction} :
    readyAction observed action = some ready ↔ action = ready.action
        ∧ stateOf action.actionId observed ≠ .matchedComplete
        ∧ (∀ dependency ∈ action.dependencyActionIds,
          stateOf dependency observed = .matchedComplete)
        ∧ nextOperation (stateOf action.actionId observed) = some ready.operation := by
  unfold readyAction
  by_cases hcomplete : stateOf action.actionId observed = .matchedComplete
  · rw [if_pos hcomplete]
    apply iff_of_false
    · exact fun h => nomatch h
    · exact fun h => h.2.1 hcomplete
  · rw [if_neg hcomplete]
    by_cases hdependencies : ∀ dependency ∈ action.dependencyActionIds,
        stateOf dependency observed = .matchedComplete
    · rw [if_pos hdependencies, Option.map_eq_some_iff]
      constructor
      · rintro ⟨operation, hoperation, rfl⟩
        exact ⟨rfl, hcomplete, hdependencies, hoperation⟩
      · rintro ⟨rfl, -, -, hoperation⟩
        exact ⟨ready.operation, hoperation, rfl⟩
    · rw [if_neg hdependencies]
      apply iff_of_false
      · exact fun h => nomatch h
      · exact fun h => hdependencies h.2.2.1

theorem mem_readyOf : ready ∈ readyOf actions observed ↔ IsReady actions observed ready := by
  unfold readyOf
  rw [mem_filterMap]
  constructor
  · rintro ⟨action, haction, h⟩
    obtain ⟨rfl, hincomplete, hdependencies, hoperation⟩ := readyAction_eq_some.mp h
    exact ⟨haction, hincomplete, hdependencies, hoperation⟩
  · intro h
    exact ⟨ready.action, h.expected, readyAction_eq_some.mpr
      ⟨rfl, h.incomplete, h.dependencies, h.operation⟩⟩

theorem readyOf_sublist (actions : List BacktestExpectedAction)
    (observed : List (Nat × BacktestActionObservation)) :
    ((readyOf actions observed).map (·.action)).Sublist actions := by
  unfold readyOf
  induction actions with
  | nil => exact Sublist.refl _
  | cons action actions ih =>
    rw [filterMap_cons]
    cases h : readyAction observed action with
    | none => exact ih.cons action
    | some ready =>
      obtain ⟨rfl, -⟩ := readyAction_eq_some.mp h
      exact ih.cons_cons ready.action

/-- A plan with something ready saw nothing mismatched and nothing failed for
good. -/
theorem clean_of_ready (h : (reconcile run actions observations).readyActions ≠ []) :
    ∀ observation ∈ observations, observation.state ≠ .mismatch
      ∧ observation.state ≠ .failedTerminal := by
  unfold reconcile at h
  dsimp only at h
  split at h
  next => exact absurd rfl h
  next hnone =>
    have hmismatch : mismatchIds actions observations = [] := by
      by_contra hne
      exact hnone (.inl (decide_eq_true hne))
    obtain ⟨hnodup, hall⟩ := mismatchIds_eq_nil.mp hmismatch
    intro observation hobservation
    refine ⟨(hall observation hobservation).2, fun hterminal => hnone (.inr ?_)⟩
    have hkeys : (Lib.keys (observations.map fun observation =>
        (observation.actionId, observation))).Nodup := by
      unfold Lib.keys
      rw [map_map]
      exact hnodup
    rw [contains_iff_mem, byId, dictOf_eq hkeys, map_map]
    exact hterminal ▸ mem_map_of_mem (f := fun item => item.state) hobservation

theorem mem_readyActions (h : ready ∈ (reconcile run actions observations).readyActions) :
    IsReady actions (byId observations) ready := by
  unfold reconcile at h
  dsimp only at h
  split at h
  next => cases h
  next => exact mem_readyOf.mp h

theorem readyActions_nodup (hactions : (actions.map (·.actionId)).Nodup) :
    ((reconcile run actions observations).readyActions.map
      (·.action.actionId)).Nodup := by
  unfold reconcile
  dsimp only
  split
  next => exact nodup_nil
  next =>
    have hsub := (readyOf_sublist actions (byId observations)).map (·.actionId)
    rw [map_map] at hsub
    exact hactions.sublist hsub

variable (h : mismatchIds actions observations = [])

include h in
theorem mismatch_not_mem :
    .mismatch ∉ actions.map fun action => stateOf action.actionId (byId observations) := by
  intro hmem
  obtain ⟨action, -, hbad⟩ := mem_map.mp hmem
  obtain ⟨observation, hobservation, -, heq⟩ := exists_observed (by rw [hbad]; decide)
  exact ((mismatchIds_eq_nil.mp h).2 observation hobservation).2 (heq.trans hbad)

include h in
theorem executionState_of_no_mismatch : (reconcile run actions observations).executionState
      = executionStateOf (actions.map fun action =>
        stateOf action.actionId (byId observations)) false := by
  unfold reconcile
  simp only [h, ne_eq, not_true_eq_false, decide_false, Bool.false_eq_true, if_false]

theorem integrityError_iff : (reconcile run actions observations).executionState = .integrityError
      ↔ mismatchIds actions observations ≠ [] := by
  constructor
  · intro h hnone
    have hexecution := @executionState_of_no_mismatch run _ _ hnone
    rw [hexecution] at h
    unfold executionStateOf at h
    rw [if_neg (by simpa using mismatch_not_mem hnone)] at h
    split_ifs at h
  · intro h
    unfold reconcile
    dsimp only
    rw [if_pos (decide_eq_true h)]

-- ==== progress

theorem exists_first_not {α : Type _} {p : α → Prop} {l : List α} (h : ¬ ∀ x ∈ l, p x) :
    ∃ earlier x later, l = earlier ++ x :: later ∧ (∀ y ∈ earlier, p y) ∧ ¬ p x := by
  induction l with
  | nil => exact absurd (fun x hx => nomatch hx) h
  | cons x l ih =>
    by_cases hx : p x
    · have hrest : ¬ ∀ y ∈ l, p y := fun hall => h (forall_mem_cons.mpr ⟨hx, hall⟩)
      obtain ⟨earlier, y, later, rfl, hbefore, hy⟩ := ih hrest
      exact ⟨x :: earlier, y, later, rfl, forall_mem_cons.mpr ⟨hx, hbefore⟩, hy⟩
    · exact ⟨[], x, l, rfl, forall_mem_nil _, hx⟩

/-- Among actions that are not all complete and of which none has failed for good,
one is ready. -/
theorem readyOf_ne_nil (hordered : TopologicallyOrdered actions)
    (halive : ∀ action ∈ actions, stateOf action.actionId observed ≠ .mismatch
      ∧ stateOf action.actionId observed ≠ .failedTerminal)
    (hopen : ¬ ∀ action ∈ actions, stateOf action.actionId observed = .matchedComplete) :
    readyOf actions observed ≠ [] := by
  obtain ⟨earlier, action, later, heq, hcomplete, hincomplete⟩ := exists_first_not hopen
  have haction : action ∈ actions := by
    rw [heq]
    exact mem_append_right _ mem_cons_self
  have hdependencies : ∀ dependency ∈ action.dependencyActionIds,
      stateOf dependency observed = .matchedComplete := by
    intro dependency hdependency
    obtain ⟨other, hother, rfl⟩ := mem_map.mp
      (hordered.before earlier action later heq dependency hdependency)
    exact hcomplete other hother
  obtain ⟨operation, hoperation⟩ : ∃ operation,
      nextOperation (stateOf action.actionId observed) = some operation := by
    obtain ⟨hmismatch, hterminal⟩ := halive action haction
    cases hstate : stateOf action.actionId observed with
    | absent => exact ⟨_, rfl⟩
    | matchedIncomplete => exact ⟨_, rfl⟩
    | failedRetryable => exact ⟨_, rfl⟩
    | matchedComplete => exact absurd hstate hincomplete
    | failedTerminal => exact absurd hstate hterminal
    | mismatch => exact absurd hstate hmismatch
  have hready : IsReady actions observed ⟨action, operation⟩ :=
    ⟨haction, hincomplete, hdependencies, hoperation⟩
  exact ne_nil_of_mem (mem_readyOf.mpr hready)

include h in
theorem readyActions_of_no_mismatch (hterminal : ¬ ∃ action ∈ actions,
      stateOf action.actionId (byId observations) = .failedTerminal) :
    (reconcile run actions observations).readyActions = readyOf actions (byId observations) := by
  obtain ⟨hnodup, hall⟩ := mismatchIds_eq_nil.mp h
  have hnone : ¬ (((byId observations).map (·.2.state)).contains .failedTerminal) = true := by
    rw [contains_iff_mem]
    intro hmem
    obtain ⟨item, hitem, hfailed⟩ := mem_map.mp hmem
    obtain ⟨observation, hobservation, rfl⟩ := mem_map.mp (mem_dictOf hitem)
    obtain ⟨action, haction, hid⟩ := mem_map.mp (hall observation hobservation).1
    refine hterminal ⟨action, haction, ?_⟩
    rw [hid, stateOf_of_mem hnodup hobservation]
    exact hfailed
  unfold reconcile
  simp only [h, ne_eq, not_true_eq_false, decide_false, Bool.false_eq_true, false_or, if_neg hnone]

/-- Whatever was observed of a graph that is not empty, it is complete, in error,
failed for good, or has a ready action. -/
theorem reconcile_progress (hne : actions ≠ []) (hordered : TopologicallyOrdered actions)
    (run : FrozenBacktestRun) (observations : List BacktestActionObservation) :
    (reconcile run actions observations).executionState = .completed
      ∨ (reconcile run actions observations).executionState = .integrityError
      ∨ ((reconcile run actions observations).executionState = .failed ∧ ∃ action ∈ actions,
          stateOf action.actionId (byId observations) = .failedTerminal)
      ∨ (reconcile run actions observations).readyActions ≠ [] := by
  by_cases hmismatch : mismatchIds actions observations = []
  · have hexecution := @executionState_of_no_mismatch run _ _ hmismatch
    have hstates := mismatch_not_mem hmismatch
    by_cases hcomplete : ∀ action ∈ actions,
        stateOf action.actionId (byId observations) = .matchedComplete
    · refine .inl ?_
      have hstatesComplete : (actions.map fun action =>
          stateOf action.actionId (byId observations)) ≠ []
          ∧ ∀ state ∈ actions.map fun action =>
            stateOf action.actionId (byId observations), state = .matchedComplete :=
        ⟨by simpa using hne, by rw [forall_mem_map]; exact hcomplete⟩
      rw [hexecution]
      unfold executionStateOf
      rw [if_neg (by simpa using hstates), if_pos hstatesComplete]
    · by_cases hterminal : ∃ action ∈ actions,
        stateOf action.actionId (byId observations) = .failedTerminal
      · refine .inr (.inr (.inl ⟨?_, hterminal⟩))
        obtain ⟨action, haction, hfailed⟩ := hterminal
        rw [hexecution]
        unfold executionStateOf
        rw [if_neg (by simpa using hstates), if_neg, if_pos]
        · exact .inr (mem_map.mpr ⟨action, haction, hfailed⟩)
        · intro hall
          exact hcomplete (forall_mem_map.mp hall.2)
      · refine .inr (.inr (.inr ?_))
        rw [readyActions_of_no_mismatch hmismatch hterminal]
        refine readyOf_ne_nil hordered (fun action haction => ⟨fun hbad => ?_,
          fun hfailed => hterminal ⟨action, haction, hfailed⟩⟩) hcomplete
        exact hstates (mem_map.mpr ⟨action, haction, hbad⟩)
  · exact .inr (.inl (integrityError_iff.mpr hmismatch))

end MarketRegimeAlpha.ResearchQualification.BacktestExecution
