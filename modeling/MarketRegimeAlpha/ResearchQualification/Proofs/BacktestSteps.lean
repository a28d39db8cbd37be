/-
What one step of the backtest executor can do.

# One action of a plan

`Worked` has the ways in which the work on a ready action ends, with the run it
leaves. An execution is checked (`Checked`): the run ends, it plans again from what it
observes of all actions, or, where the action alone was looked at and is complete, it
goes on to the next. Both say why a run ends that could have gone on: a mismatch, or
an action that is as it was.
-/
import MarketRegimeAlpha.ResearchQualification.Proofs.BacktestReconciliation

namespace MarketRegimeAlpha.ResearchQualification.BacktestExecution

open Lib List

variable {W : Type}

-- ==== the assumptions

/-- An execution changes the state of its own action only, and a complete action
stays complete; the blockers and the clock change no state. -/
structure Ports.Lawful (ports : Ports W) : Prop where
  others : ∀ world action operation actionId, actionId ≠ action.actionId →
    ports.state (ports.execute world action operation).1 actionId = ports.state world actionId
  stable : ∀ world action operation, ports.state world action.actionId = .matchedComplete →
    ports.state (ports.execute world action operation).1 action.actionId = .matchedComplete
  blockers : ∀ world, ports.state (ports.blockers world).1 = ports.state world
  late : ∀ world, ports.state (ports.late world).1 = ports.state world

-- ==== the observations

section Observations

variable {ports : Ports W} {world : W} {scope : List BacktestExpectedAction}

theorem mem_observe
    {observation : BacktestActionObservation} (h : observation ∈ ports.observe world scope) :
    ∃ action ∈ scope, observation.actionId = action.actionId
      ∧ observation.state = ports.state world action.actionId := by
  obtain ⟨action, haction, rfl⟩ := mem_map.mp h
  exact ⟨action, haction, rfl, rfl⟩

theorem observe_ids (world : W) (scope : List BacktestExpectedAction) :
    (ports.observe world scope).map (·.actionId) = scope.map (·.actionId) := by
  unfold Ports.observe
  rw [map_map]
  rfl

theorem stateOf_observe (hnodup : (scope.map (·.actionId)).Nodup) {action : BacktestExpectedAction}
    (haction : action ∈ scope) :
    stateOf action.actionId (byId (ports.observe world scope))
      = ports.state world action.actionId := by
  have hmem : ⟨action.actionId, ports.state world action.actionId,
      ports.researchState world action.actionId⟩ ∈ ports.observe world scope :=
    mem_map_of_mem haction
  exact stateOf_of_mem (by rw [observe_ids]; exact hnodup) hmem

theorem exists_mismatch {run : FrozenBacktestRun} {expected scope : List BacktestExpectedAction}
    (hscope : ∀ action ∈ scope, action ∈ expected) (hnodup : (scope.map (·.actionId)).Nodup)
    (h : (reconcile run expected (ports.observe world scope)).executionState = .integrityError) :
    ∃ action ∈ expected, ports.state world action.actionId = .mismatch := by
  by_contra hnone
  have hmismatch := integrityError_iff.mp h
  refine hmismatch (mismatchIds_eq_nil.mpr ⟨by rw [observe_ids]; exact hnodup, ?_⟩)
  intro observation hobservation
  obtain ⟨action, haction, hid, hstate⟩ := mem_observe hobservation
  constructor
  · rw [hid]
    exact mem_map_of_mem (hscope action haction)
  · intro hbad
    exact hnone ⟨action, hscope action haction, hstate.symm.trans hbad⟩

end Observations

-- ==== the ends

/-- The end of a run that has work left and nothing ready. -/
def stuck : Fault := .integrity "Backtest has incomplete work but no dependency-ready action"

/-- The run ends here, and not for want of a ready action. -/
def Turn.Ended : Turn → Prop
  | .returned _ => True
  | .failed fault => fault ≠ stuck
  | .onward _ => False
  | .next => False

theorem integrity_ne_stuck {message : String}
    (h : message ≠ "Backtest has incomplete work but no dependency-ready action") :
    Fault.integrity message ≠ stuck := by
  intro heq
  injection heq with heq
  exact h heq

variable (plan : BacktestExecutionPlan)

theorem mismatchMessage_head : (mismatchMessage plan).toList[9]? = some 'r' := by
  unfold mismatchMessage
  rw [String.toList_append, getElem?_append_left (by decide)]
  rfl

theorem mismatchMessage_ne : Fault.integrity (mismatchMessage plan) ≠ stuck := by
  intro h
  have htext := Fault.integrity.inj h
  have hhead := mismatchMessage_head plan
  rw [htext] at hhead
  exact absurd hhead (by decide)

-- ==== one action

section Steps

variable (ports : Ports W) (run : FrozenBacktestRun) (expected : List BacktestExpectedAction)
  (budget : Option BacktestExecutionBudget)

def Progress.after (progress : Progress W) (scope : List BacktestExpectedAction) :
    Progress W :=
  (progress.observe ports scope).2

def Progress.executed (progress : Progress W) (world : W)
    (action : BacktestExpectedAction) (operation : BacktestNextOperation) : Progress W where
  world := (ports.execute world action operation).1
  events := .executed action operation :: progress.events
  transitions := progress.transitions + 1

/-- Why a run ends after an execution: a mismatch, or the action is as it was. -/
def Trouble (before : List (Nat × BacktestActionObservation)) (actionId : Nat) (world : W) : Prop :=
  ports.state world actionId = stateOf actionId before
    ∨ ∃ action ∈ expected, ports.state world action.actionId = .mismatch

/-- How the check of an execution goes on, from the run after it. -/
inductive Checked (before : List (Nat × BacktestActionObservation))
    (action : BacktestExpectedAction) (fullScope : Bool) (progress : Progress W) :
    Turn × Progress W → Prop
  | ended {turn : Turn} {scope : List BacktestExpectedAction} (hturn : turn.Ended)
      (htrouble : Trouble ports expected before action.actionId progress.world) :
      Checked before action fullScope progress (turn, progress.after ports scope)
  | endedAgain {turn : Turn} (hturn : turn.Ended)
      (htrouble : Trouble ports expected before action.actionId progress.world) :
      Checked before action fullScope progress
        (turn, (progress.after ports [action]).after ports expected)
  | onward (hfull : fullScope = true) : Checked before action fullScope progress
        (.onward (ports.observe progress.world expected), progress.after ports expected)
  | broken : Checked before action fullScope progress
        (.onward (ports.observe progress.world expected),
          (progress.after ports [action]).after ports expected)
  | next (hfull : fullScope = false)
      (hcomplete : ports.state progress.world action.actionId = .matchedComplete) :
      Checked before action fullScope progress (.next, progress.after ports [action])

/-- How the work on a ready action goes on. -/
inductive Worked (plan : BacktestExecutionPlan)
    (before : List (Nat × BacktestActionObservation)) (ready : BacktestReadyAction)
    (fullScope : Bool) (start : Progress W) : Turn × Progress W → Prop
  | blocked (hstate : ports.state (ports.blockers start.world).1 = ports.state start.world)
      (hblockers : (ports.blockers start.world).2 ≠ []) :
      Worked plan before ready fullScope start (.returned { plan with
            readyActions := []
            executionBlockers := (ports.blockers start.world).2 },
          { start with world := (ports.blockers start.world).1 })
  | bounded {world : W} {turn : Turn}
      (hstate : ports.state world = ports.state start.world) (hturn : turn.Ended)
      (hreached : maxTransitions expected ≤ start.transitions) :
      Worked plan before ready fullScope start (turn, { start with world })
  | drained {world : W} {turn : Turn}
      (hstate : ports.state world = ports.state start.world) (hturn : turn.Ended)
      (hbudget : budget ≠ none) :
      Worked plan before ready fullScope start
        (turn, Progress.after ports { start with world } expected)
  | raised {world : W} {error : String} (hstate : ports.state world = ports.state start.world)
      (hblockers : budget = none → world = (ports.blockers start.world).1)
      (hlimit : ∀ limit ∈ budget, start.transitions < limit.maximumActions)
      (hraised : (ports.execute world ready.action ready.operation).2 = some error) :
      Worked plan before ready fullScope start (.failed (.raised error),
          start.executed ports world ready.action ready.operation)
  | executed {world : W} {result : Turn × Progress W}
      (hstate : ports.state world = ports.state start.world)
      (hblockers : budget = none → world = (ports.blockers start.world).1)
      (hlimit : ∀ limit ∈ budget, start.transitions < limit.maximumActions)
      (hchecked : Checked ports expected before ready.action fullScope
        (start.executed ports world ready.action ready.operation) result) :
      Worked plan before ready fullScope start result

end Steps

-- ==== the inversion

section Inversion

variable {ports : Ports W} {run : FrozenBacktestRun} {expected : List BacktestExpectedAction}
  {budget : Option BacktestExecutionBudget} {before : List (Nat × BacktestActionObservation)}
  {ready : BacktestReadyAction} {progress : Progress W}

theorem unmoved_ended (operation : BacktestNextOperation) (fullScope : Bool)
    (checkedPlan : BacktestExecutionPlan) (progress : Progress W) :
    ∃ turn : Turn, turn.Ended ∧ (unmoved ports run expected operation fullScope checkedPlan progress
          = (turn, progress)
        ∨ fullScope = false ∧ unmoved ports run expected operation fullScope checkedPlan progress
            = (turn, progress.after ports expected)) := by
  unfold unmoved
  by_cases hrecover : operation = .recover
  · rw [if_pos hrecover]
    cases fullScope with
    | true =>
      simp only [if_true]
      split
      · refine ⟨_, ?_, .inl rfl⟩
        exact integrity_ne_stuck (by decide)
      · exact ⟨.returned _, trivial, .inl rfl⟩
    | false =>
      simp only [Bool.false_eq_true, if_false]
      split
      · refine ⟨_, ?_, .inr ⟨trivial, rfl⟩⟩
        exact integrity_ne_stuck (by decide)
      · exact ⟨.returned _, trivial, .inr ⟨trivial, rfl⟩⟩
  · rw [if_neg hrecover]
    refine ⟨_, ?_, .inl rfl⟩
    exact integrity_ne_stuck (by decide)

theorem afterExecution_full (hnodup : (expected.map (·.actionId)).Nodup)
    (hmem : ready.action ∈ expected) :
    Checked ports expected before ready.action true progress
      (afterExecution ports run expected before ready true progress) := by
  have hstate := @stateOf_observe W ports progress.world expected hnodup _ hmem
  unfold afterExecution Progress.observe
  simp only [not_true_eq_false, false_and, if_false, if_true]
  split
  next herror =>
    exact .ended (mismatchMessage_ne _) (.inr (exists_mismatch (fun _ h => h) hnodup herror))
  next =>
    split
    next hsame =>
      obtain ⟨turn, hended, hleft | ⟨hfull, -⟩⟩ := @unmoved_ended W ports run expected
        ready.operation true
        (reconcile run expected (ports.observe progress.world expected))
        (progress.after ports expected)
      · exact hleft ▸ .ended hended (.inl (hstate.symm.trans hsame))
      · cases hfull
    next => exact .onward rfl

theorem afterExecution_single (hmem : ready.action ∈ expected) :
    Checked ports expected before ready.action false progress
      (afterExecution ports run expected before ready false progress) := by
  have hnodup : ([ready.action].map (·.actionId)).Nodup := nodup_singleton _
  have hstate := @stateOf_observe W ports progress.world [ready.action] hnodup _ mem_cons_self
  unfold afterExecution Progress.observe
  simp only [Bool.false_eq_true, not_false_eq_true, true_and, if_false]
  split
  next hdiffers =>
    refine .ended (integrity_ne_stuck (by decide)) (.inr ⟨ready.action, hmem, ?_⟩)
    rcases hdiffers with hlength | hid | hmismatch
    · exact absurd rfl hlength
    · exact absurd rfl hid
    · exact Option.some.inj hmismatch
  next =>
    split
    next hcomplete => exact .next rfl (Option.some.inj hcomplete)
    next hincomplete =>
      split
      next herror =>
        refine .ended (mismatchMessage_ne _) (.inr (exists_mismatch ?_ hnodup herror))
        rintro action haction
        cases mem_singleton.mp haction
        exact hmem
      next =>
        split
        next hsame =>
          obtain ⟨turn, hended, hleft | ⟨-, hleft⟩⟩ := @unmoved_ended W ports run expected
            ready.operation false
            (reconcile run expected (ports.observe progress.world [ready.action]))
            (progress.after ports [ready.action])
          · exact hleft ▸ .ended hended (.inl (hstate.symm.trans hsame))
          · exact hleft ▸ .endedAgain hended (.inl (hstate.symm.trans hsame))
        next =>
          split
          next => exact .broken
          next hcomplete =>
            rw [hstate, not_not] at hcomplete
            exact absurd (congrArg some hcomplete) hincomplete

theorem afterExecution_checked (hnodup : (expected.map (·.actionId)).Nodup)
    (hmem : ready.action ∈ expected) (fullScope : Bool) :
    Checked ports expected before ready.action fullScope progress
      (afterExecution ports run expected before ready fullScope progress) := by
  cases fullScope with
  | true => exact afterExecution_full hnodup hmem
  | false => exact afterExecution_single hmem

/-- The clock says that the budget is spent, or there is some of it left; it moves the
world only. -/
theorem spent_cases (hlawful : ports.Lawful) (progress : Progress W) :
    ∃ world, ports.state world = ports.state progress.world
      ∧ (budget = none → world = progress.world)
      ∧ (spent ports budget progress = (true, { progress with world }) ∧ budget ≠ none
        ∨ spent ports budget progress = (false, { progress with world })
          ∧ ∀ limit ∈ budget, progress.transitions < limit.maximumActions) := by
  cases budget with
  | none => exact ⟨progress.world, rfl, fun _ => rfl, .inr ⟨rfl, nofun⟩⟩
  | some limit =>
    unfold spent
    dsimp only
    by_cases hreached : limit.maximumActions ≤ progress.transitions
    · rw [if_pos hreached]
      exact ⟨progress.world, rfl, fun _ => rfl, .inl ⟨rfl, nofun⟩⟩
    · rw [if_neg hreached]
      refine ⟨_, hlawful.late progress.world, nofun, ?_⟩
      cases hlate : (ports.late progress.world).2 with
      | true => exact .inl ⟨rfl, nofun⟩
      | false =>
        refine .inr ⟨rfl, fun other hother => ?_⟩
        cases hother
        omega

theorem drain_ended (progress : Progress W) : ∃ turn : Turn, turn.Ended
      ∧ drain ports run expected progress = (turn, progress.after ports expected) := by
  unfold drain
  dsimp only
  split
  · refine ⟨_, ?_, rfl⟩
    exact integrity_ne_stuck (by decide)
  · exact ⟨.returned _, trivial, rfl⟩

theorem workOn_worked (hlawful : ports.Lawful) (hnodup : (expected.map (·.actionId)).Nodup)
    (hmem : ready.action ∈ expected) (plan : BacktestExecutionPlan) (fullScope : Bool) :
    Worked ports expected budget plan before ready fullScope progress
      (workOn ports run expected budget plan before ready fullScope progress) := by
  have hblockers := hlawful.blockers progress.world
  unfold workOn
  dsimp only
  split
  next hblocked => exact .blocked hblockers hblocked
  next =>
    split
    next hreached =>
      refine .bounded hblockers ?_ hreached
      exact integrity_ne_stuck (by decide)
    next =>
      obtain ⟨world, hstate, hnone, ⟨hspent, hbudget⟩ | ⟨hspent, hlimit⟩⟩ :=
        @spent_cases W ports budget hlawful
          { progress with world := (ports.blockers progress.world).1 }
      · obtain ⟨turn, hended, hdrain⟩ := @drain_ended W ports run expected { progress with world }
        rw [hspent, if_pos rfl, hdrain]
        exact .drained (hstate.trans hblockers) hended hbudget
      · rw [hspent, if_neg Bool.false_ne_true]
        split
        next error hraised => exact .raised (hstate.trans hblockers) hnone hlimit hraised
        next =>
          exact .executed (hstate.trans hblockers) hnone hlimit
            (afterExecution_checked hnodup hmem fullScope)

end Inversion
end MarketRegimeAlpha.ResearchQualification.BacktestExecution
