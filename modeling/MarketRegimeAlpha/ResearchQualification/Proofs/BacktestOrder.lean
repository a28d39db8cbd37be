/-
The order of a backtest's actions: when there is one, what it keeps, and what it
does not depend on.

# The loop

At every turn the drafts are the ones ordered and the ones that remain, and the
ordered ones have their dependencies before them (`Ordering`). A layer takes some
of the remaining ones, or, if none is ready, each of them depends on another that
remains: a cycle (`Ordering.stuck`).
-/
import MarketRegimeAlpha.Lib.Layers
import MarketRegimeAlpha.ResearchQualification.BacktestGraph
import MarketRegimeAlpha.ResearchQualification.Proofs.BacktestReconciliation

namespace MarketRegimeAlpha.ResearchQualification.BacktestExecution

open Lib List

-- ==== the graph

def DependsOn (drafts : List ActionDraft) (actionId dependency : Nat) : Prop :=
  ∃ draft ∈ drafts, draft.actionId = actionId ∧ dependency ∈ draft.dependencyActionIds

/-- Every dependency is one of the actions. -/
def Closed (drafts : List ActionDraft) : Prop :=
  ∀ draft ∈ drafts, ∀ dependency ∈ draft.dependencyActionIds, dependency ∈ drafts.map (·.actionId)

/-- Some action depends on itself, over others. -/
def Cyclic (drafts : List ActionDraft) : Prop :=
  ∃ actionId, Relation.TransGen (DependsOn drafts) actionId actionId

-- ==== the loop

/-- What holds at every turn. -/
structure Ordering (drafts remaining ordered : List ActionDraft) (completed : List Nat) : Prop where
  perm : (ordered ++ remaining).Perm drafts
  done : completed = ordered.map (·.actionId)
  preceded : Preceded (DependsOn drafts) completed

section Turn

variable {drafts remaining ordered : List ActionDraft} {completed : List Nat} {draft : ActionDraft}

theorem mem_readyDrafts : draft ∈ readyDrafts remaining completed ↔ draft ∈ remaining
      ∧ ∀ dependency ∈ draft.dependencyActionIds, dependency ∈ completed := by
  unfold readyDrafts
  rw [(sortBy_perm _ _).mem_iff, mem_filter, decide_eq_true_iff]

theorem readyDrafts_append_perm (hnodup : (remaining.map (·.actionId)).Nodup) :
    (readyDrafts remaining completed
      ++ withoutReady remaining (readyDrafts remaining completed)).Perm remaining := by
  have hids : ∀ draft ∈ remaining,
      draft.actionId ∈ (readyDrafts remaining completed).map (·.actionId)
        ↔ ∀ dependency ∈ draft.dependencyActionIds, dependency ∈ completed := by
    intro draft hdraft
    constructor
    · intro hmem
      obtain ⟨other, hother, hid⟩ := mem_map.mp hmem
      obtain ⟨hremaining, hready⟩ := mem_readyDrafts.mp hother
      rw [← inj_on_of_nodup_map hnodup hremaining hdraft hid]
      exact hready
    · exact fun hready => mem_map_of_mem (mem_readyDrafts.mpr ⟨hdraft, hready⟩)
  have hrest : withoutReady remaining (readyDrafts remaining completed)
      = remaining.filter fun draft => !decide (∀ dependency ∈ draft.dependencyActionIds,
          dependency ∈ completed) := by
    refine filter_congr fun draft hdraft => ?_
    rw [decide_not, decide_eq_decide.mpr (hids draft hdraft)]
  rw [hrest]
  exact ((sortBy_perm _ _).append_right _).trans (filter_append_perm _ _)

variable (hnodup : (drafts.map (·.actionId)).Nodup)

include hnodup in
theorem DependsOn.of_mem (hdraft : draft ∈ drafts)
    {dependency : Nat} (h : DependsOn drafts draft.actionId dependency) :
    dependency ∈ draft.dependencyActionIds := by
  obtain ⟨other, hother, hid, hdependency⟩ := h
  rwa [inj_on_of_nodup_map hnodup hother hdraft hid] at hdependency

variable (h : Ordering drafts remaining ordered completed)

include h in
include hnodup in
theorem Ordering.turn : Ordering drafts (withoutReady remaining (readyDrafts remaining completed))
      (ordered ++ readyDrafts remaining completed)
      (completed ++ (readyDrafts remaining completed).map (·.actionId)) := by
  have hids := (h.perm.map (·.actionId)).nodup_iff.mpr hnodup
  rw [map_append] at hids
  have hremaining := (nodup_append.mp hids).2.1
  refine ⟨?_, ?_, h.preceded.append fun actionId hid dependency hdepends => ?_⟩
  · rw [append_assoc]
    exact ((readyDrafts_append_perm hremaining).append_left _).trans h.perm
  · rw [h.done, map_append]
  · obtain ⟨draft, hdraft, rfl⟩ := mem_map.mp hid
    obtain ⟨hmem, hready⟩ := mem_readyDrafts.mp hdraft
    have hdrafts := h.perm.subset (mem_append_right ordered hmem)
    exact hready dependency (hdepends.of_mem hnodup hdrafts)

include h in
theorem Ordering.stuck (hclosed : Closed drafts)
    (hne : remaining ≠ []) (hstuck : readyDrafts remaining completed = []) : Cyclic drafts := by
  have hids : remaining.map (·.actionId) ≠ [] := fun hnil => hne (map_eq_nil_iff.mp hnil)
  have hleads : ∀ actionId ∈ remaining.map (·.actionId),
      ∃ dependency ∈ remaining.map (·.actionId), DependsOn drafts actionId dependency := by
    intro actionId hid
    obtain ⟨draft, hdraft, rfl⟩ := mem_map.mp hid
    have hdrafts := h.perm.subset (mem_append_right ordered hdraft)
    obtain ⟨dependency, hdependency, hwaiting⟩ :
        ∃ dependency ∈ draft.dependencyActionIds, dependency ∉ completed := by
      by_contra hnone
      push Not at hnone
      have hmem := mem_readyDrafts.mpr ⟨hdraft, hnone⟩
      rw [hstuck] at hmem
      cases hmem
    refine ⟨dependency, ?_, draft, hdrafts, rfl, hdependency⟩
    have hmem := (h.perm.map (·.actionId)).mem_iff.mpr
      (hclosed draft hdrafts dependency hdependency)
    rw [map_append, ← h.done] at hmem
    exact (mem_append.mp hmem).resolve_left hwaiting
  obtain ⟨actionId, -, hcycle⟩ := exists_cycle hids hleads
  exact ⟨actionId, hcycle⟩

include hnodup in
theorem topologicalLoop_spec (hclosed : Closed drafts)
    (h : Ordering drafts remaining ordered completed) :
    (∃ result, topologicalLoop remaining ordered completed = .ok result
        ∧ Ordering drafts [] result (result.map (·.actionId)))
      ∨ (topologicalLoop remaining ordered completed
          = .error (.valueError "Backtest execution graph contains a cycle")
        ∧ Cyclic drafts) := by
  fun_induction topologicalLoop remaining ordered completed with
  | case1 ordered completed => exact .inl ⟨ordered, rfl, by rw [← h.done]; exact h⟩
  | case2 remaining ordered completed hne ready hstuck =>
    exact .inr ⟨rfl, h.stuck hclosed hne hstuck⟩
  | case3 remaining ordered completed hne ready hready ih => exact ih (h.turn hnodup)

end Turn

-- ==== the input order

def SameAction (draft draft' : ActionDraft) : Prop :=
  { draft with dependencyActionIds := [] } = { draft' with dependencyActionIds := [] }
    ∧ draft.dependencyActionIds.Perm draft'.dependencyActionIds

def Reordered (drafts drafts' : List ActionDraft) : Prop :=
  ∃ middle, drafts.Perm middle ∧ List.Forall₂ SameAction middle drafts'

/-- The action with the ids it depends on sorted. -/
def canonical (draft : ActionDraft) : ActionDraft :=
  { draft with dependencyActionIds := sortBy id draft.dependencyActionIds }

section InputOrder

variable {drafts drafts' remaining remaining' ordered : List ActionDraft} {completed : List Nat}
  {draft draft' : ActionDraft} {dependency : Nat}

theorem sortBy_id_eq_iff {l l' : List Nat} : sortBy id l = sortBy id l' ↔ l.Perm l' := by
  constructor
  case mp =>
    intro h
    exact (sortBy_perm id l).symm.trans (h ▸ sortBy_perm id l')
  case mpr =>
    intro h
    have := @map_sortBy_eq Nat _ Nat Nat id id l l' (by rwa [map_id, map_id])
    rwa [map_id, map_id] at this

theorem canonical_eq_iff : canonical draft = canonical draft' ↔ SameAction draft draft' := by
  simp only [canonical, SameAction, ActionDraft.mk.injEq, sortBy_id_eq_iff]
  tauto

theorem mem_canonical : dependency ∈ (canonical draft).dependencyActionIds
      ↔ dependency ∈ draft.dependencyActionIds :=
  (sortBy_perm id _).mem_iff

theorem readyDrafts_canonical : readyDrafts (remaining.map canonical) completed
    = (readyDrafts remaining completed).map canonical := by
  unfold readyDrafts
  rw [filter_map, sortBy_map]
  congr 2
  refine filter_congr fun draft _ => ?_
  simp only [Function.comp_apply, mem_canonical]

theorem map_actionId_canonical :
    (remaining.map canonical).map (·.actionId) = remaining.map (·.actionId) := by
  rw [map_map]
  rfl

theorem withoutReady_canonical {ready : List ActionDraft} :
    withoutReady (remaining.map canonical) (ready.map canonical)
      = (withoutReady remaining ready).map canonical := by
  unfold withoutReady
  rw [map_actionId_canonical, filter_map]
  rfl

theorem topologicalLoop_canonical :
    topologicalLoop (remaining.map canonical) (ordered.map canonical) completed
      = (topologicalLoop remaining ordered completed).map (List.map canonical) := by
  fun_induction topologicalLoop remaining ordered completed with
  | case1 ordered completed =>
    rw [map_nil, topologicalLoop, if_pos rfl]
    rfl
  | case2 remaining ordered completed hne ready hstuck =>
    rw [topologicalLoop, if_neg (by simpa using hne), if_pos]
    · rfl
    · rw [readyDrafts_canonical, map_eq_nil_iff]
      exact hstuck
  | case3 remaining ordered completed hne ready hready ih =>
    have hready' : readyDrafts (remaining.map canonical) completed ≠ [] := by
      rw [readyDrafts_canonical]
      exact fun hnil => hready (map_eq_nil_iff.mp hnil)
    rw [topologicalLoop, if_neg (by simpa using hne), if_neg hready', ← ih]
    rw [readyDrafts_canonical, withoutReady_canonical, map_actionId_canonical, map_append]

theorem nodup_readyKey (hnodup : (remaining.map (·.actionId)).Nodup) :
    (remaining.map readyKey).Nodup := by
  refine Nodup.of_map (fun key => (ofLex (ofLex (ofLex (ofLex key).2).2).2).2) ?_
  rw [map_map]
  exact hnodup

theorem readyDrafts_perm (completed : List Nat)
    (hnodup : (remaining.map (·.actionId)).Nodup) (hperm : remaining.Perm remaining') :
    readyDrafts remaining completed = readyDrafts remaining' completed := by
  refine sortBy_eq_of_perm (hperm.filter _) ?_
  exact (nodup_readyKey hnodup).sublist (filter_sublist.map _)

theorem topologicalLoop_perm : ∀ {remaining' : List ActionDraft},
    (remaining.map (·.actionId)).Nodup → remaining.Perm remaining' →
    topologicalLoop remaining ordered completed = topologicalLoop remaining' ordered completed := by
  fun_induction topologicalLoop remaining ordered completed with
  | case1 ordered completed =>
    intro remaining' _ hperm
    rw [hperm.symm.eq_nil, topologicalLoop, if_pos rfl]
  | case2 remaining ordered completed hne ready =>
    rename_i hstuck
    intro remaining' hnodup hperm
    have hne' : remaining' ≠ [] := fun hnil => hne (hnil ▸ hperm).eq_nil
    have hready := readyDrafts_perm completed hnodup hperm
    rw [topologicalLoop, if_neg hne', if_pos (hready ▸ hstuck)]
  | case3 remaining ordered completed hne ready hready =>
    rename_i ih
    intro remaining' hnodup hperm
    have hne' : remaining' ≠ [] := fun hnil => hne (hnil ▸ hperm).eq_nil
    have hsame := readyDrafts_perm completed hnodup hperm
    rw [topologicalLoop.eq_def remaining', if_neg hne', if_neg (hsame ▸ hready)]
    rw [← hsame]
    exact ih (hnodup.sublist (filter_sublist.map _)) (hperm.filter _)

theorem SameAction.mem_dependency (h : SameAction draft draft') :
    dependency ∈ draft.dependencyActionIds ↔ dependency ∈ draft'.dependencyActionIds :=
  h.2.mem_iff

theorem map_canonical_eq_iff : drafts.map canonical = drafts'.map canonical
      ↔ List.Forall₂ SameAction drafts drafts' := by
  rw [← forall₂_eq_eq_eq, forall₂_map_left_iff, forall₂_map_right_iff]
  exact ⟨fun h => h.imp fun _ _ => canonical_eq_iff.mp,
    fun h => h.imp fun _ _ => canonical_eq_iff.mpr⟩

theorem Reordered.actionIds (h : Reordered drafts drafts') :
    (drafts.map (·.actionId)).Perm (drafts'.map (·.actionId)) := by
  obtain ⟨middle, hperm, hsame⟩ := h
  have heq : middle.map (·.actionId) = drafts'.map (·.actionId) := by
    rw [← map_actionId_canonical, map_canonical_eq_iff.mpr hsame, map_actionId_canonical]
  rw [← heq]
  exact hperm.map _

theorem Reordered.closed_iff (h : Reordered drafts drafts') : Closed drafts ↔ Closed drafts' := by
  have hids (dependency : Nat) := h.actionIds.mem_iff (a := dependency)
  obtain ⟨middle, hperm, hsame⟩ := h
  constructor
  case mp =>
    intro hclosed draft' hdraft' dependency hdependency
    obtain ⟨draft, hdraft, hdrafts⟩ := forall₂_right hsame hdraft'
    exact (hids _).mp (hclosed draft (hperm.mem_iff.mpr hdraft) dependency
      (hdrafts.mem_dependency.mpr hdependency))
  case mpr =>
    intro hclosed draft hdraft dependency hdependency
    obtain ⟨draft', hdraft', hdrafts⟩ := forall₂_left hsame (hperm.mem_iff.mp hdraft)
    exact (hids _).mpr (hclosed draft' hdraft' dependency (hdrafts.mem_dependency.mp hdependency))

end InputOrder

-- ==== the result

section Result

variable {drafts drafts' : List ActionDraft}

theorem Ordering.start (drafts : List ActionDraft) : Ordering drafts drafts [] [] :=
  ⟨.refl _, rfl, .nil _⟩

theorem topologicalActions_duplicate (h : ¬ (drafts.map (·.actionId)).Nodup) :
    topologicalActions drafts = .error
      (.valueError "Backtest execution graph contains duplicate action identities") := by
  have hlength : (dictOf (drafts.map fun draft => (draft.actionId, draft))).length
      ≠ drafts.length := by
    intro heq
    have := nodup_of_length_dictOf (heq.trans (length_map _).symm)
    rw [Lib.keys, map_map] at this
    exact h this
  unfold topologicalActions
  dsimp only
  rw [require, if_neg hlength]
  rfl

variable (h : (drafts.map (·.actionId)).Nodup)

include h in
theorem byId_drafts : dictOf (drafts.map fun draft => (draft.actionId, draft))
      = drafts.map fun draft => (draft.actionId, draft) := by
  apply dictOf_eq
  rw [Lib.keys, map_map]
  exact h

theorem keys_byId : Lib.keys (drafts.map fun draft => (draft.actionId, draft))
    = drafts.map (·.actionId) := by
  rw [Lib.keys, map_map]
  rfl

include h in
theorem topologicalActions_missing (hclosed : ¬ Closed drafts) : topologicalActions drafts = .error
      (.valueError "Backtest execution graph has missing dependencies") := by
  unfold topologicalActions
  dsimp only
  rw [byId_drafts h, require_true (length_map _), ok_bind, keys_byId, require]
  split
  next hall => exact absurd hall hclosed
  next => rfl

include h in
theorem topologicalActions_eq (hclosed : Closed drafts) :
    topologicalActions drafts = topologicalLoop drafts [] [] := by
  have hall : ∀ draft ∈ drafts, ∀ dependency ∈ draft.dependencyActionIds,
      dependency ∈ drafts.map (·.actionId) := hclosed
  unfold topologicalActions
  dsimp only
  rw [byId_drafts h, require_true (length_map _), ok_bind, keys_byId,
    require_true hall, ok_bind, map_map]
  congr 1
  exact map_id _

theorem topologicalActions_error_iff : (∃ raised, topologicalActions drafts = .error raised)
      ↔ ¬ (drafts.map (·.actionId)).Nodup ∨ ¬ Closed drafts ∨ Cyclic drafts := by
  by_cases hnodup : (drafts.map (·.actionId)).Nodup
  case neg => exact ⟨fun _ => .inl hnodup, fun _ => ⟨_, topologicalActions_duplicate hnodup⟩⟩
  by_cases hclosed : Closed drafts
  case neg =>
    exact ⟨fun _ => .inr (.inl hclosed), fun _ => ⟨_, topologicalActions_missing hnodup hclosed⟩⟩
  rw [topologicalActions_eq hnodup hclosed]
  obtain ⟨result, hresult, hordering⟩ | ⟨herror, hcyclic⟩ :=
    topologicalLoop_spec hnodup hclosed (.start drafts)
  · constructor
    · rintro ⟨raised, hraised⟩
      rw [hresult] at hraised
      cases hraised
    · rintro (hbad | hbad | ⟨actionId, hcycle⟩)
      · exact absurd hnodup hbad
      · exact absurd hclosed hbad
      · -- the cycle starts at an action, which the order has
        have hperm : result.Perm drafts := by simpa using hordering.perm
        have hids := (hperm.map (·.actionId)).nodup_iff.mpr hnodup
        have hmem : actionId ∈ result.map (·.actionId) := by
          rw [(hperm.map (·.actionId)).mem_iff]
          obtain ⟨-, ⟨draft, hdraft, hid, -⟩, -⟩ := Relation.TransGen.head'_iff.mp hcycle
          exact hid ▸ mem_map_of_mem hdraft
        exact absurd hcycle (hordering.preceded.acyclic hids hmem)
  · exact ⟨fun _ => .inr (.inr hcyclic), fun _ => ⟨_, herror⟩⟩

theorem topologicalActions_ok {result : List ActionDraft}
    (h : topologicalActions drafts = .ok result) :
    result.Perm drafts ∧ (result.map (·.actionId)).Nodup
      ∧ ∀ earlier draft later, result = earlier ++ draft :: later →
        ∀ dependency ∈ draft.dependencyActionIds, dependency ∈ earlier.map (·.actionId) := by
  have hnone : ¬ ∃ raised, topologicalActions drafts = .error raised := by
    rintro ⟨raised, hraised⟩
    rw [h] at hraised
    cases hraised
  rw [topologicalActions_error_iff] at hnone
  push Not at hnone
  obtain ⟨hnodup, hclosed, hacyclic⟩ := hnone
  rw [topologicalActions_eq hnodup hclosed] at h
  obtain ⟨result', hresult, hordering⟩ | ⟨-, hcyclic⟩ :=
    topologicalLoop_spec hnodup hclosed (.start drafts)
  · cases h.symm.trans hresult
    have hperm : result.Perm drafts := by simpa using hordering.perm
    refine ⟨hperm, (hperm.map _).nodup_iff.mpr hnodup, ?_⟩
    intro earlier draft later hsplit dependency hdependency
    have hdraft : draft ∈ drafts := hperm.subset (by rw [hsplit]; simp)
    refine hordering.preceded (earlier.map (·.actionId)) draft.actionId
      (later.map (·.actionId)) ?_ dependency ⟨draft, hdraft, rfl, hdependency⟩
    rw [hsplit, map_append, map_cons]
  · exact absurd hcyclic hacyclic

theorem topologicalActions_reordered (h : Reordered drafts drafts') :
    (topologicalActions drafts).map (List.map canonical)
      = (topologicalActions drafts').map (List.map canonical) := by
  have hids := h.actionIds.nodup_iff
  by_cases hnodup : (drafts.map (·.actionId)).Nodup
  case neg =>
    rw [topologicalActions_duplicate hnodup,
      topologicalActions_duplicate fun hnodup' => hnodup (hids.mpr hnodup')]
  by_cases hclosed : Closed drafts
  case neg =>
    rw [topologicalActions_missing hnodup hclosed, topologicalActions_missing
      (hids.mp hnodup) fun hclosed' => hclosed (h.closed_iff.mpr hclosed')]
  rw [topologicalActions_eq hnodup hclosed,
    topologicalActions_eq (hids.mp hnodup) (h.closed_iff.mp hclosed)]
  obtain ⟨middle, hperm, hsame⟩ := h
  rw [topologicalLoop_perm hnodup hperm]
  have hleft := @topologicalLoop_canonical middle [] []
  have hright := @topologicalLoop_canonical drafts' [] []
  rw [map_canonical_eq_iff.mpr hsame] at hleft
  exact hleft.symm.trans hright

end Result

/-- The order of the actions: refused for two drafts of one id, a dependency that is
none of them or a cycle, and otherwise all the drafts, each after those it depends
on, whatever the order of the drafts and of the ids they depend on. -/
theorem topological_order (drafts : List ActionDraft) :
    ((∃ raised, topologicalActions drafts = .error raised) ↔ ¬ (drafts.map (·.actionId)).Nodup
        ∨ (∃ draft ∈ drafts, ∃ dependency ∈ draft.dependencyActionIds,
          dependency ∉ drafts.map (·.actionId))
        ∨ ∃ actionId, Relation.TransGen (DependsOn drafts) actionId actionId)
    ∧ (∀ result, topologicalActions drafts = .ok result → result.Perm drafts
        ∧ ∀ earlier draft later, result = earlier ++ draft :: later →
          ∀ dependency ∈ draft.dependencyActionIds, dependency ∈ earlier.map (·.actionId))
    ∧ ∀ drafts', Reordered drafts drafts' → (∀ raised, topologicalActions drafts = .error raised →
        topologicalActions drafts' = .error raised)
      ∧ ∀ result, topologicalActions drafts = .ok result →
        ∃ result', topologicalActions drafts' = .ok result'
          ∧ List.Forall₂ SameAction result result' := by
  refine ⟨?_, fun result h => ?_, fun drafts' h => ⟨fun raised hraised => ?_,
    fun result hresult => ?_⟩⟩
  · rw [topologicalActions_error_iff]
    unfold Closed Cyclic
    push Not
    rfl
  · obtain ⟨hperm, -, hbefore⟩ := topologicalActions_ok h
    exact ⟨hperm, hbefore⟩
  · have hmap := topologicalActions_reordered h
    rw [hraised] at hmap
    cases hdrafts' : topologicalActions drafts' with
    | error raised' =>
      rw [hdrafts'] at hmap
      exact congrArg _ (Except.error.inj hmap).symm
    | ok result' =>
      rw [hdrafts'] at hmap
      cases hmap
  · have hmap := topologicalActions_reordered h
    rw [hresult] at hmap
    cases hdrafts' : topologicalActions drafts' with
    | error raised' =>
      rw [hdrafts'] at hmap
      cases hmap
    | ok result' =>
      rw [hdrafts'] at hmap
      exact ⟨result', rfl, map_canonical_eq_iff.mp (Except.ok.inj hmap)⟩

theorem expectedActions_ordered {drafts : List ActionDraft} {expected : List BacktestExpectedAction}
    (h : expectedActions drafts = .ok expected) : TopologicallyOrdered expected := by
  obtain ⟨result, hresult, hexpected⟩ := bind_ok.mp h
  obtain ⟨-, hnodup, hbefore⟩ := topologicalActions_ok hresult
  cases hexpected
  constructor
  case nodup =>
    rw [map_map]
    exact hnodup
  case before =>
    intro earlier action later hsplit dependency hdependency
    obtain ⟨earlier', rest, rfl, rfl, hrest⟩ := map_eq_append_iff.mp hsplit
    obtain ⟨draft, later', rfl, rfl, rfl⟩ := map_eq_cons_iff.mp hrest
    rw [map_map]
    exact hbefore earlier' draft later' rfl dependency hdependency

end MarketRegimeAlpha.ResearchQualification.BacktestExecution
