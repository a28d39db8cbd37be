/-
The graph of a backtest's actions, and the order the planner gives them.

# How it is translated

A UUID is its number, whose order is that of its text; the empty text that stands
for an absent one comes before every other. A dictionary of drafts by their ids is
the list of its values, in the order in which their keys came first.

# The order

The planner takes the drafts in layers: of those that remain, the ones whose
dependencies are all done, sorted by kind, fold, arm, session and id. Every layer
has a draft, so the drafts that remain become fewer, or the loop stops at a cycle.
-/
import Mathlib.Data.Prod.Lex
import Mathlib.Data.String.Basic
import MarketRegimeAlpha.ResearchQualification.BacktestExecution

namespace MarketRegimeAlpha.ResearchQualification.BacktestExecution

open Lib List

def BacktestActionKind.value : BacktestActionKind → String
  | .materializeDataset => "MATERIALIZE_DATASET"
  | .generateDecisionSupport => "GENERATE_DECISION_SUPPORT"
  | .settleOutcome => "SETTLE_OUTCOME"
  | .completeFoldEvaluation => "COMPLETE_FOLD_EVALUATION"
  | .trainModel => "TRAIN_MODEL"
  | .completeAggregateEvaluation => "COMPLETE_AGGREGATE_EVALUATION"

structure ActionDraft where
  actionId : Nat
  kind : BacktestActionKind
  (armId foldId foldSessionId modelTrainingRequirementId evaluationRequirementId : Option Nat)
  dependencyActionIds : List Nat

/-- `"" if id is None else str(id)`. -/
def idText (id : Option Nat) : WithBot Nat := id

def readyKey (draft : ActionDraft) : String ×ₗ WithBot Nat ×ₗ WithBot Nat ×ₗ WithBot Nat ×ₗ Nat :=
  toLex (draft.kind.value, toLex (idText draft.foldId, toLex (idText draft.armId,
    toLex (idText draft.foldSessionId, draft.actionId))))

def readyDrafts (remaining : List ActionDraft) (completed : List Nat) :
    List ActionDraft :=
  sortBy readyKey (remaining.filter fun draft =>
    ∀ dependency ∈ draft.dependencyActionIds, dependency ∈ completed)

/-- What is left after a layer. -/
def withoutReady (remaining ready : List ActionDraft) : List ActionDraft :=
  remaining.filter fun draft => draft.actionId ∉ ready.map (·.actionId)

theorem length_withoutReady {remaining : List ActionDraft} {completed : List Nat}
    (h : readyDrafts remaining completed ≠ []) :
    (withoutReady remaining (readyDrafts remaining completed)).length < remaining.length := by
  obtain ⟨draft, hdraft⟩ := exists_mem_of_ne_nil _ h
  have hmem := (mem_filter.mp ((sortBy_perm _ _).mem_iff.mp hdraft)).1
  refine length_filter_lt_length_iff_exists.mpr ⟨draft, hmem, ?_⟩
  simp only [decide_not, Bool.not_eq_true', decide_eq_false_iff_not, not_not]
  exact mem_map_of_mem hdraft

def topologicalLoop (remaining ordered : List ActionDraft) (completed : List Nat) :
    Except Raised (List ActionDraft) :=
  if remaining = [] then .ok ordered
  else
    let ready := readyDrafts remaining completed
    if ready = [] then
      .error (.valueError "Backtest execution graph contains a cycle")
    else
      topologicalLoop (withoutReady remaining ready) (ordered ++ ready)
        (completed ++ ready.map (·.actionId))
termination_by remaining.length
decreasing_by exact length_withoutReady ‹_›

variable (drafts : List ActionDraft)

def topologicalActions : Except Raised (List ActionDraft) :=
  do
  let byId := dictOf (drafts.map fun draft => (draft.actionId, draft))
  Lib.require (byId.length = drafts.length)
    (.valueError "Backtest execution graph contains duplicate action identities")
  Lib.require
    (∀ draft ∈ drafts, ∀ dependency ∈ draft.dependencyActionIds, dependency ∈ Lib.keys byId)
    (.valueError "Backtest execution graph has missing dependencies")
  topologicalLoop (byId.map (·.2)) [] []

/-- `_expected_actions`, of the drafts of a run. -/
def expectedActions : Except Raised (List BacktestExpectedAction) := do
  let ordered ← topologicalActions drafts
  return ordered.map fun draft =>
    ⟨draft.actionId, draft.kind, draft.foldId, draft.dependencyActionIds⟩

end MarketRegimeAlpha.ResearchQualification.BacktestExecution
