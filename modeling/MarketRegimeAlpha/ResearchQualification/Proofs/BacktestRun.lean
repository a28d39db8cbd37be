/-
What every run of the backtest executor keeps, whatever its actions do.

# The snapshot

A plan is made from one observation of all actions, and its ready actions are
executed one after the other, each looked at again alone. That the plan still holds
for the later ones is because an execution changes the state of its own action only
(`Lawful`): until its turn an action is as the plan saw it.
-/
import MarketRegimeAlpha.ResearchQualification.Proofs.BacktestSteps

namespace MarketRegimeAlpha.ResearchQualification.BacktestExecution

open Lib List

variable {W : Type} {action : BacktestExpectedAction} {operation : BacktestNextOperation}

-- ==== the properties

/-- Some event has seen this. -/
def Saw (events : List Event) (actionId : Nat) (state : BacktestObservedState) : Prop :=
  ∃ observations, Event.observed observations ∈ events
    ∧ ∃ observation ∈ observations, observation.actionId = actionId ∧ observation.state = state

/-- The dependencies of the action were seen complete, itself never, and nothing was
seen mismatched or failed for good. -/
structure Allowed (events : List Event) (action : BacktestExpectedAction) : Prop where
  dependencies : ∀ dependency ∈ action.dependencyActionIds, Saw events dependency .matchedComplete
  incomplete : ¬ Saw events action.actionId .matchedComplete
  clean : ∀ actionId, ¬ Saw events actionId .mismatch ∧ ¬ Saw events actionId .failedTerminal

/-- Each execution was allowed by the events before it. -/
def Safe : List Event → Prop
  | [] => True
  | .observed _ :: events => Safe events
  | .executed action _ :: events => Allowed events action ∧ Safe events

def executions : List Event → Nat
  | [] => 0
  | .observed _ :: events => executions events
  | .executed _ _ :: events => executions events + 1

theorem Safe.allowed {events earlier later : List Event} (h : Safe events)
    (heq : events = later ++ .executed action operation :: earlier) :
    Allowed earlier action := by
  induction later generalizing events with
  | nil =>
    subst heq
    exact h.1
  | cons event later ih =>
    subst heq
    cases event with
    | observed observations =>
      exact ih (show Safe (later ++ .executed action operation :: earlier) from h)
        rfl
    | executed other operation => exact ih h.2 rfl

def Clean (events : List Event) : Prop :=
  ∀ actionId, ¬ Saw events actionId .mismatch ∧ ¬ Saw events actionId .failedTerminal

variable {events : List Event} {observations : List BacktestActionObservation} {actionId : Nat}
  {state : BacktestObservedState}

theorem saw_observed_cons : Saw (.observed observations :: events) actionId state
      ↔ (∃ observation ∈ observations, observation.actionId = actionId
          ∧ observation.state = state) ∨ Saw events actionId state := by
  constructor
  · rintro ⟨seen, hmem, hseen⟩
    rcases mem_cons.mp hmem with heq | hmem
    · cases heq
      exact .inl hseen
    · exact .inr ⟨seen, hmem, hseen⟩
  · rintro (hseen | ⟨seen, hmem, hseen⟩)
    · exact ⟨observations, mem_cons_self, hseen⟩
    · exact ⟨seen, mem_cons_of_mem _ hmem, hseen⟩

theorem saw_executed_cons :
    Saw (.executed action operation :: events) actionId state ↔ Saw events actionId state := by
  constructor
  · rintro ⟨seen, hmem, hseen⟩
    rcases mem_cons.mp hmem with heq | hmem
    · cases heq
    · exact ⟨seen, hmem, hseen⟩
  · rintro ⟨seen, hmem, hseen⟩
    exact ⟨seen, mem_cons_of_mem _ hmem, hseen⟩

theorem Clean.observed (h : Clean events)
    (hclean : ∀ observation ∈ observations, observation.state ≠ .mismatch
      ∧ observation.state ≠ .failedTerminal) :
    Clean (.observed observations :: events) := by
  intro actionId
  rw [saw_observed_cons, saw_observed_cons]
  constructor
  · rintro (⟨observation, hmem, -, hstate⟩ | hseen)
    · exact (hclean observation hmem).1 hstate
    · exact (h actionId).1 hseen
  · rintro (⟨observation, hmem, -, hstate⟩ | hseen)
    · exact (hclean observation hmem).2 hstate
    · exact (h actionId).2 hseen

theorem Clean.executed (h : Clean events)
    (action : BacktestExpectedAction) (operation : BacktestNextOperation) :
    Clean (.executed action operation :: events) := by
  intro actionId
  rw [saw_executed_cons, saw_executed_cons]
  exact h actionId

-- ==== the invariant

section Invariant

variable (ports : Ports W) (budget : Option BacktestExecutionBudget)

/-- What a run keeps: each execution was allowed, what was seen complete is complete,
and the transitions are the executions, within the budget. -/
structure Sound (progress : Progress W) : Prop where
  safe : Safe progress.events
  truthful : ∀ actionId, Saw progress.events actionId .matchedComplete →
    ports.state progress.world actionId = .matchedComplete
  counted : progress.transitions = executions progress.events
  bounded : ∀ limit ∈ budget, progress.transitions ≤ limit.maximumActions

variable {ports budget} {progress : Progress W}

theorem Sound.moved (h : Sound ports budget progress) {world : W}
    (hstate : ports.state world = ports.state progress.world) :
    Sound ports budget { progress with world } where
  safe := h.safe
  truthful := fun actionId hseen => by
    rw [hstate]
    exact h.truthful actionId hseen
  counted := h.counted
  bounded := h.bounded

theorem Sound.observe (h : Sound ports budget progress) (scope : List BacktestExpectedAction) :
    Sound ports budget (progress.after ports scope) where
  safe := h.safe
  truthful := fun actionId hseen => by
    rcases saw_observed_cons.mp hseen with ⟨observation, hmem, rfl, hstate⟩ | hseen
    · obtain ⟨action, -, hid, hobserved⟩ := mem_observe hmem
      show ports.state progress.world observation.actionId = .matchedComplete
      rw [hid, ← hobserved]
      exact hstate
    · exact h.truthful actionId hseen
  counted := h.counted
  bounded := h.bounded

/-- Something seen is mismatched or has failed for good. -/
def Dirty (observations : List BacktestActionObservation) : Prop :=
  ∃ observation ∈ observations, observation.state = .mismatch ∨ observation.state = .failedTerminal

theorem Clean.observed_or_dirty {events : List Event} (h : Clean events)
    (observations : List BacktestActionObservation) :
    Clean (.observed observations :: events) ∨ Dirty observations := by
  by_cases hdirty : Dirty observations
  · exact .inr hdirty
  · refine .inl (h.observed fun observation hmem => ⟨fun hstate => ?_, fun hstate => ?_⟩)
    · exact hdirty ⟨observation, hmem, .inl hstate⟩
    · exact hdirty ⟨observation, hmem, .inr hstate⟩

theorem Sound.executed (hlawful : ports.Lawful) (h : Sound ports budget progress)
    {action : BacktestExpectedAction} {operation : BacktestNextOperation}
    (hallowed : Allowed progress.events action)
    (hlimit : ∀ limit ∈ budget, progress.transitions < limit.maximumActions) :
    Sound ports budget (progress.executed ports progress.world action operation) where
  safe := ⟨hallowed, h.safe⟩
  truthful := fun actionId hseen => by
    have hbefore := h.truthful actionId (saw_executed_cons.mp hseen)
    by_cases hid : actionId = action.actionId
    · subst hid
      exact hlawful.stable _ _ _ hbefore
    · exact (hlawful.others _ _ _ actionId hid).trans hbefore
  counted := congrArg (· + 1) h.counted
  bounded := fun limit hmem => Nat.succ_le_of_lt (hlimit limit hmem)

end Invariant

-- ==== a batch

section Batch

variable (ports : Ports W) (expected : List BacktestExpectedAction)
  (budget : Option BacktestExecutionBudget)

/-- What the loop plans from: the states as they are, among the events, and if
anything was seen that forbids to go on, it is seen again. -/
structure Planning (observed : List BacktestActionObservation) (progress : Progress W) : Prop where
  sound : Sound ports budget progress
  now : ∃ world, ports.state world = ports.state progress.world
    ∧ observed = ports.observe world expected
  seen : .observed observed ∈ progress.events
  fine : Clean progress.events ∨ Dirty observed

/-- The ready actions of a plan that are left: each is as the plan saw it. -/
structure Batch (before : List (Nat × BacktestActionObservation))
    (left : List BacktestReadyAction) (progress : Progress W) : Prop where
  sound : Sound ports budget progress
  clean : Clean progress.events
  nodup : (left.map (·.action.actionId)).Nodup
  ready : ∀ ready ∈ left, IsReady expected before ready
  current : ∀ ready ∈ left, ports.state progress.world ready.action.actionId
    = stateOf ready.action.actionId before
  seen : ∀ actionId, stateOf actionId before = .matchedComplete →
    Saw progress.events actionId .matchedComplete

variable {ports expected budget} {before : List (Nat × BacktestActionObservation)}
  {ready : BacktestReadyAction} {rest : List BacktestReadyAction} {progress : Progress W}
  {plan : BacktestExecutionPlan} {fullScope : Bool} {result : Turn × Progress W}

theorem Batch.allowed (h : Batch ports expected budget before (ready :: rest) progress) :
    Allowed progress.events ready.action where
  dependencies := fun dependency hdependency =>
    h.seen dependency ((h.ready ready mem_cons_self).dependencies dependency hdependency)
  incomplete := fun hseen => by
    have hstate := h.sound.truthful _ hseen
    rw [h.current ready mem_cons_self] at hstate
    exact (h.ready ready mem_cons_self).incomplete hstate
  clean := h.clean

theorem Sound.planning (h : Sound ports budget progress) (hclean : Clean progress.events) :
    Planning ports expected budget (ports.observe progress.world expected)
      (progress.after ports expected) where
  sound := h.observe expected
  now := ⟨progress.world, rfl, rfl⟩
  seen := mem_cons_self
  fine := hclean.observed_or_dirty _

variable {action : BacktestExpectedAction} {observed : List BacktestActionObservation}

theorem Sound.planning_again (h : Sound ports budget progress)
    (hclean : Clean progress.events) (haction : action ∈ expected) :
    Planning ports expected budget (ports.observe progress.world expected)
      ((progress.after ports [action]).after ports expected) where
  sound := (h.observe [action]).observe expected
  now := ⟨progress.world, rfl, rfl⟩
  seen := mem_cons_self
  fine := by
    rcases hclean.observed_or_dirty (ports.observe progress.world [action]) with
      hclean | hdirty
    · exact hclean.observed_or_dirty _
    · obtain ⟨observation, hobservation, hstate⟩ := hdirty
      rw [mem_singleton.mp hobservation] at hstate
      exact .inr ⟨_, mem_map_of_mem haction, hstate⟩

theorem Batch.executed (hlawful : ports.Lawful)
    (h : Batch ports expected budget before (ready :: rest) progress) {world : W}
    (hstate : ports.state world = ports.state progress.world)
    (hlimit : ∀ limit ∈ budget, progress.transitions < limit.maximumActions) :
    Batch ports expected budget before rest
      (progress.executed ports world ready.action ready.operation) where
  sound := by
    have hmoved : Sound ports budget { progress with world } := h.sound.moved hstate
    exact hmoved.executed hlawful h.allowed hlimit
  clean := h.clean.executed _ _
  nodup := (nodup_cons.mp h.nodup).2
  ready := fun other hother => h.ready other (mem_cons_of_mem _ hother)
  current := fun other hother => by
    have hne : other.action.actionId ≠ ready.action.actionId := by
      intro heq
      apply (nodup_cons.mp h.nodup).1
      exact mem_map.mpr ⟨other, hother, heq⟩
    have hother := h.current other (mem_cons_of_mem _ hother)
    rw [← hstate] at hother
    exact (hlawful.others world _ _ _ hne).trans hother
  seen := fun actionId hcomplete => saw_executed_cons.mpr (h.seen actionId hcomplete)

theorem Batch.after (h : Batch ports expected budget before rest progress)
    (hcomplete : ports.state progress.world action.actionId = .matchedComplete) :
    Batch ports expected budget before rest (progress.after ports [action]) where
  sound := h.sound.observe [action]
  clean := h.clean.observed fun observation hobservation => by
    rw [mem_singleton.mp hobservation]
    dsimp only
    rw [hcomplete]
    decide
  nodup := h.nodup
  ready := h.ready
  current := h.current
  seen := fun actionId hseen => saw_observed_cons.mpr (.inr (h.seen actionId hseen))

theorem Batch.checked (haction : action ∈ expected)
    (h : Batch ports expected budget before rest progress)
    (hchecked : Checked ports expected before action fullScope progress result) :
    Sound ports budget result.2 ∧ (result.1.Ended ∨ (∃ observed, result.1 = .onward observed
          ∧ Planning ports expected budget observed result.2)
        ∨ fullScope = false ∧ result.1 = .next
          ∧ Batch ports expected budget before rest result.2) := by
  cases hchecked with
  | ended hturn htrouble => exact ⟨h.sound.observe _, .inl hturn⟩
  | endedAgain hturn htrouble => exact ⟨(h.sound.observe _).observe _, .inl hturn⟩
  | onward hfull =>
    have hplanning := @Sound.planning W ports expected budget _ h.sound h.clean
    exact ⟨hplanning.sound, .inr (.inl ⟨_, rfl, hplanning⟩)⟩
  | broken =>
    have hplanning := h.sound.planning_again h.clean haction
    exact ⟨hplanning.sound, .inr (.inl ⟨_, rfl, hplanning⟩)⟩
  | next hfull hcomplete => exact ⟨h.sound.observe _, .inr (.inr ⟨hfull, rfl, h.after hcomplete⟩)⟩

theorem Batch.worked (hlawful : ports.Lawful)
    (h : Batch ports expected budget before (ready :: rest) progress)
    (hworked : Worked ports expected budget plan before ready fullScope progress result) :
    Sound ports budget result.2 ∧ (result.1.Ended ∨ (∃ observed, result.1 = .onward observed
          ∧ Planning ports expected budget observed result.2)
        ∨ fullScope = false ∧ result.1 = .next
          ∧ Batch ports expected budget before rest result.2) := by
  cases hworked with
  | blocked hstate hblockers => exact ⟨h.sound.moved hstate, .inl trivial⟩
  | bounded hstate hturn hreached => exact ⟨h.sound.moved hstate, .inl hturn⟩
  | drained hstate hturn hbudget => exact ⟨(h.sound.moved hstate).observe expected, .inl hturn⟩
  | raised hstate hblockers hlimit hraised =>
    refine ⟨(h.executed hlawful hstate hlimit).sound, .inl ?_⟩
    exact fun heq => nomatch heq
  | executed hstate hblockers hlimit hchecked =>
    exact (h.executed hlawful hstate hlimit).checked
      (h.ready ready mem_cons_self).expected hchecked

/-- The work on a batch ends the run, or plans again. -/
theorem Batch.turn_kept (hlawful : ports.Lawful) (hnodup : (expected.map (·.actionId)).Nodup)
    (run : FrozenBacktestRun) (plan : BacktestExecutionPlan)
    (observed : List BacktestActionObservation) {left : List BacktestReadyAction}
    (hne : left ≠ []) (h : Batch ports expected budget before left progress) :
    Sound ports budget (turn ports run expected budget plan before observed left progress).2
      ∧ ((turn ports run expected budget plan before observed left progress).1.Ended ∨ ∃ observed',
          (turn ports run expected budget plan before observed left progress).1 = .onward observed'
            ∧ Planning ports expected budget observed'
              (turn ports run expected budget plan before observed left progress).2) := by
  induction left generalizing progress with
  | nil => exact absurd rfl hne
  | cons ready rest ih =>
    have hworked := @workOn_worked W ports run expected budget before ready progress
      hlawful hnodup (h.ready ready mem_cons_self).expected plan (rest = [])
    have hkept := h.worked hlawful hworked
    unfold turn
    generalize hresult : workOn ports run expected budget plan before ready
      (decide (rest = [])) progress = result at hkept ⊢
    obtain ⟨hsound, hended | ⟨observed', honward, hplanning⟩ | ⟨hfull, hnext, hbatch⟩⟩ := hkept
    · obtain ⟨step, progress'⟩ := result
      cases step with
      | returned plan => exact ⟨hsound, .inl hended⟩
      | failed fault => exact ⟨hsound, .inl hended⟩
      | onward observed' => exact hended.elim
      | next => exact hended.elim
    · obtain ⟨step, progress'⟩ := result
      cases honward
      exact ⟨hsound, .inr ⟨observed', rfl, hplanning⟩⟩
    · obtain ⟨step, progress'⟩ := result
      cases hnext
      exact ih (of_decide_eq_false hfull) hbatch

theorem Planning.batch (hnodup : (expected.map (·.actionId)).Nodup) {run : FrozenBacktestRun}
    (h : Planning ports expected budget observed progress)
    (hready : (reconcile run expected observed).readyActions ≠ []) :
    Batch ports expected budget (byId observed)
      (reconcile run expected observed).readyActions progress where
  sound := h.sound
  clean := by
    rcases h.fine with hclean | ⟨observation, hobservation, hstate⟩
    · exact hclean
    · obtain ⟨hmismatch, hterminal⟩ := clean_of_ready hready observation hobservation
      exact absurd hstate (not_or.mpr ⟨hmismatch, hterminal⟩)
  nodup := readyActions_nodup hnodup
  ready := fun _ hmem => mem_readyActions hmem
  current := fun ready hmem => by
    obtain ⟨world, hstate, rfl⟩ := h.now
    rw [← hstate]
    exact (stateOf_observe hnodup (mem_readyActions hmem).expected).symm
  seen := fun actionId hcomplete => by
    obtain ⟨observation, hobservation, hid, hstate⟩ := exists_observed (by rw [hcomplete]; decide)
    exact ⟨observed, h.seen, observation, hobservation, hid, hstate.trans hcomplete⟩

theorem readyActions_ne_nil (hne : expected ≠ []) (hordered : TopologicallyOrdered expected)
    (run : FrozenBacktestRun) (observed : List BacktestActionObservation)
    (herror : (reconcile run expected observed).executionState ≠ .integrityError)
    (hincomplete : (reconcile run expected observed).executionState ≠ .completed)
    (hfailed : ¬ ((reconcile run expected observed).executionState = .failed
      ∧ (reconcile run expected observed).readyActions = [])) :
    (reconcile run expected observed).readyActions ≠ [] := by
  intro hnone
  rcases reconcile_progress hne hordered run observed with
    hcompleted | hintegrity | ⟨hfinal, -⟩ | hready
  · exact hincomplete hcompleted
  · exact herror hintegrity
  · exact hfailed ⟨hfinal, hnone⟩
  · exact hready hnone

/-- The loop keeps what the run keeps, and there is always something ready. -/
theorem Planning.loop_kept (hlawful : ports.Lawful) (hne : expected ≠ [])
    (hordered : TopologicallyOrdered expected) (run : FrozenBacktestRun) (fuel : Nat)
    (h : Planning ports expected budget observed progress) :
    (driveLoop ports run expected budget fuel observed progress).1 ≠ .error stuck
      ∧ Sound ports budget (driveLoop ports run expected budget fuel observed progress).2 := by
  induction fuel generalizing observed progress with
  | zero =>
    refine ⟨fun heq => ?_, h.sound⟩
    exact integrity_ne_stuck (by decide) (Except.error.inj heq)
  | succ fuel ih =>
    unfold driveLoop
    dsimp only
    split
    next => exact ⟨fun heq => mismatchMessage_ne _ (Except.error.inj heq), h.sound⟩
    next herror =>
      split
      next => exact ⟨nofun, h.sound⟩
      next hincomplete =>
        split
        next => exact ⟨nofun, h.sound⟩
        next hfailed =>
          have hready := readyActions_ne_nil hne hordered run observed herror hincomplete hfailed
          rw [if_neg hready]
          have hturn := (h.batch hordered.nodup hready).turn_kept hlawful hordered.nodup run
            (reconcile run expected observed) observed hready
          generalize turn ports run expected budget (reconcile run expected observed)
            (byId observed) observed (reconcile run expected observed).readyActions
            progress = result at hturn ⊢
          obtain ⟨step, progress'⟩ := result
          obtain ⟨hsound, hended | ⟨observed', honward, hplanning⟩⟩ := hturn
          · cases step with
            | returned plan => exact ⟨nofun, hsound⟩
            | failed fault => exact ⟨fun heq => hended (Except.error.inj heq), hsound⟩
            | onward observed' => exact hended.elim
            | next => exact hended.elim
          · cases honward
            exact ih hplanning

theorem planning_start (hlawful : ports.Lawful) (world : W) :
    Planning ports expected budget (ports.observe world expected)
      { world := (ports.blockers world).1
        events := [.observed (ports.observe world expected)]
        transitions := 0 } where
  sound := by
    have hstart : Sound ports budget ⟨world, [], 0⟩ :=
      { safe := trivial
        truthful := fun _ hseen => by
          obtain ⟨_, hmem, -⟩ := hseen
          cases hmem
        counted := rfl
        bounded := fun _ _ => Nat.zero_le _ }
    exact (hstart.observe expected).moved (hlawful.blockers world)
  now := ⟨world, (hlawful.blockers world).symm, rfl⟩
  seen := mem_cons_self
  fine := by
    have hnone : Clean [] := by
      intro actionId
      constructor <;>
        · rintro ⟨_, hmem, -⟩
          cases hmem
    exact hnone.observed_or_dirty _

theorem driveActions_sound (hlawful : ports.Lawful) (hne : expected ≠ [])
    (hordered : TopologicallyOrdered expected) (run : FrozenBacktestRun)
    (requireUnstarted : Bool) (world : W) :
    (driveActions ports run expected budget requireUnstarted world).1 ≠ .error stuck
      ∧ Sound ports budget (driveActions ports run expected budget requireUnstarted world).2 := by
  have hstart := @planning_start W ports expected budget hlawful world
  unfold driveActions
  dsimp only
  split
  next => exact ⟨nofun, hstart.sound⟩
  next =>
    split
    next =>
      refine ⟨fun heq => ?_, hstart.sound⟩
      exact integrity_ne_stuck (by decide) (Except.error.inj heq)
    next => exact hstart.loop_kept hlawful hne hordered run _

end Batch

end MarketRegimeAlpha.ResearchQualification.BacktestExecution
