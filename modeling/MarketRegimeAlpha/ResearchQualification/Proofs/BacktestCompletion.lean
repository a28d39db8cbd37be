/-
The executor of a backtest is safe on every run, and finishes one whose actions do.

# The tries

`Calls` are the worlds a run without a budget gets to, each with how often an action
was executed before it. `FourTries` says what the executions that are due do there:
they return, they change the state of their action, and the fourth completes it.
-/
import Mathlib.Algebra.Group.Action.Defs
import Mathlib.Algebra.Order.BigOperators.Group.List
import MarketRegimeAlpha.ResearchQualification.Proofs.BacktestRun

namespace MarketRegimeAlpha.ResearchQualification.BacktestExecution

open Lib List

variable {W : Type}

-- ==== the tries

section Tries

variable (ports : Ports W) (expected : List BacktestExpectedAction) (start : W)

/-- The operation on an action is due: its state asks for it, and its dependencies
are complete. -/
structure Due (world : W) (action : BacktestExpectedAction)
    (operation : BacktestNextOperation) : Prop where
  operation : nextOperation (ports.state world action.actionId) = some operation
  dependencies : ∀ dependency ∈ action.dependencyActionIds,
    ports.state world dependency = .matchedComplete

/-- The worlds a run gets to by its calls, with how often each action was executed. -/
inductive Calls : (Nat → Nat) → W → Prop
  | start : Calls (fun _ => 0) start
  | blockers {tries : Nat → Nat} {world : W} (h : Calls tries world) :
      Calls tries (ports.blockers world).1
  | execute {tries : Nat → Nat} {world : W} (h : Calls tries world)
      {action : BacktestExpectedAction} (haction : action ∈ expected)
      {operation : BacktestNextOperation} (hdue : Due ports world action operation) :
      Calls (Function.update tries action.actionId (tries action.actionId + 1))
        (ports.execute world action operation).1

/-- An execution that gets on: it returns, and leaves another state from which work
can go on, a complete one after three tries. -/
structure GetsOn (tries : Nat) (world : W) (action : BacktestExpectedAction)
    (operation : BacktestNextOperation) : Prop where
  returns : (ports.execute world action operation).2 = none
  changes : ports.state (ports.execute world action operation).1 action.actionId
    ≠ ports.state world action.actionId
  alive : ports.state (ports.execute world action operation).1 action.actionId ≠ .mismatch
    ∧ ports.state (ports.execute world action operation).1 action.actionId ≠ .failedTerminal
  completes : tries = 3 → ports.state (ports.execute world action operation).1 action.actionId
      = .matchedComplete

structure FourTries : Prop where
  alive : ∀ action ∈ expected, ports.state start action.actionId ≠ .mismatch
    ∧ ports.state start action.actionId ≠ .failedTerminal
  getsOn : ∀ tries world, Calls ports expected start tries world →
    ∀ action ∈ expected, ∀ operation, Due ports world action operation →
      GetsOn ports (tries action.actionId) world action operation

def Blocked (plan : BacktestExecutionPlan) : Prop :=
  plan.executionBlockers ≠ [] ∧ ∃ world, (ports.blockers world).2 = plan.executionBlockers

/-- A run under way whose actions were tried so often. -/
structure Trying (tries : Nat → Nat) (progress : Progress W) : Prop where
  calls : Calls ports expected start tries progress.world
  alive : ∀ action ∈ expected, ports.state progress.world action.actionId ≠ .mismatch
    ∧ ports.state progress.world action.actionId ≠ .failedTerminal
  few : ∀ action ∈ expected, tries action.actionId < 4 ∨ tries action.actionId = 4
      ∧ ports.state progress.world action.actionId = .matchedComplete
  counted : progress.transitions = (expected.map fun action => tries action.actionId).sum

end Tries

-- ==== the measure

theorem sum_update {ids : List Nat} (hnodup : ids.Nodup) {actionId : Nat}
    (hmem : actionId ∈ ids) (tries : Nat → Nat) :
    (ids.map (Function.update tries actionId (tries actionId + 1))).sum
      = (ids.map tries).sum + 1 := by
  induction ids with
  | nil => cases hmem
  | cons id ids ih =>
    obtain ⟨hid, hnodup⟩ := nodup_cons.mp hnodup
    rw [map_cons, map_cons, sum_cons, sum_cons]
    rcases mem_cons.mp hmem with rfl | hmem
    · have hrest : ids.map (Function.update tries actionId (tries actionId + 1))
          = ids.map tries := by
        apply map_congr_left
        intro other hother
        have hne : other ≠ actionId := by
          rintro rfl
          exact hid hother
        exact Function.update_of_ne hne _ _
      rw [hrest, Function.update_self]
      omega
    · have hne : id ≠ actionId := fun heq => hid (heq ▸ hmem)
      rw [ih hnodup hmem, Function.update_of_ne hne]
      omega

section Completion

variable {ports : Ports W} {expected : List BacktestExpectedAction} {start : W} {tries : Nat → Nat}
  {progress : Progress W}

variable (h : Trying ports expected start tries progress)

include h in
theorem Trying.bounded : progress.transitions < maxTransitions expected := by
  have hsum : (expected.map fun action => tries action.actionId).sum
      ≤ (expected.map fun action => tries action.actionId).length • 4 := by
    apply sum_le_card_nsmul
    intro n hn
    obtain ⟨action, haction, rfl⟩ := mem_map.mp hn
    rcases h.few action haction with hfew | ⟨hfour, -⟩ <;> omega
  rw [length_map, smul_eq_mul] at hsum
  rw [h.counted]
  unfold maxTransitions
  omega

include h in
theorem Trying.after (scope : List BacktestExpectedAction) :
    Trying ports expected start tries (progress.after ports scope) where
  calls := h.calls
  alive := h.alive
  few := h.few
  counted := h.counted

theorem Trying.blockers (hlawful : ports.Lawful) (h : Trying ports expected start tries progress) :
    Trying ports expected start tries
      { progress with world := (ports.blockers progress.world).1 } where
  calls := h.calls.blockers
  alive := by
    rw [hlawful.blockers]
    exact h.alive
  few := by
    rw [hlawful.blockers]
    exact h.few
  counted := h.counted

/-- An execution that is due is one more try. -/
theorem Trying.executed (hlawful : ports.Lawful) (hnodup : (expected.map (·.actionId)).Nodup)
    (htries : FourTries ports expected start) (h : Trying ports expected start tries progress)
    {action : BacktestExpectedAction} (haction : action ∈ expected)
    {operation : BacktestNextOperation} (hdue : Due ports progress.world action operation) :
    Trying ports expected start (Function.update tries action.actionId (tries action.actionId + 1))
      (progress.executed ports progress.world action operation) := by
  have hgets := htries.getsOn tries progress.world h.calls action haction operation hdue
  have hid : ∀ other ∈ expected, other.actionId = action.actionId ∨
      other.actionId ≠ action.actionId := fun other _ => eq_or_ne _ _
  constructor
  case calls => exact h.calls.execute haction hdue
  case alive =>
    intro other hother
    rcases hid other hother with heq | hne
    · rw [heq]
      exact hgets.alive
    · have hsame := hlawful.others progress.world action operation _ hne
      unfold Progress.executed
      rw [hsame]
      exact h.alive other hother
  case few =>
    intro other hother
    rcases hid other hother with heq | hne
    · rw [heq, Function.update_self]
      rcases h.few action haction with hfew | ⟨-, hcomplete⟩
      · by_cases hthree : tries action.actionId = 3
        · exact .inr ⟨by omega, hgets.completes hthree⟩
        · exact .inl (by omega)
      · have hoperation := hdue.operation
        rw [hcomplete] at hoperation
        cases hoperation
    · have hsame := hlawful.others progress.world action operation _ hne
      unfold Progress.executed
      rw [Function.update_of_ne hne, hsame]
      exact h.few other hother
  case counted =>
    have hsum := sum_update hnodup (mem_map_of_mem haction) tries
    rw [map_map, map_map] at hsum
    exact (congrArg (· + 1) h.counted).trans hsum.symm

variable {before : List (Nat × BacktestActionObservation)} {ready : BacktestReadyAction}
  {rest : List BacktestReadyAction}

theorem Batch.due {budget : Option BacktestExecutionBudget}
    (h : Batch ports expected budget before (ready :: rest) progress) :
    Due ports progress.world ready.action ready.operation where
  operation := by
    rw [h.current ready mem_cons_self]
    exact (h.ready ready mem_cons_self).operation
  dependencies := fun dependency hdependency =>
    h.sound.truthful dependency (h.allowed.dependencies dependency hdependency)

/-- The work on the first of a batch is blocked, or one more try. -/
theorem Batch.worked_trying (hlawful : ports.Lawful) (hnodup : (expected.map (·.actionId)).Nodup)
    (htries : FourTries ports expected start)
    {plan : BacktestExecutionPlan} {fullScope : Bool}
    {result : Turn × Progress W}
    (hbatch : Batch ports expected none before (ready :: rest) progress)
    (h : Trying ports expected start tries progress)
    (hworked : Worked ports expected none plan before ready fullScope progress result) :
    (∃ plan, result.1 = .returned plan ∧ Blocked ports plan)
      ∨ ¬ result.1.Ended ∧ progress.transitions < result.2.transitions
        ∧ ∃ tries', Trying ports expected start tries' result.2 := by
  -- what is due and gets on in the world the blockers left
  have hmoved := h.blockers hlawful
  have hdue : Due ports (ports.blockers progress.world).1 ready.action ready.operation := by
    have hfirst := hbatch.due
    constructor
    case operation => rw [hlawful.blockers]; exact hfirst.operation
    case dependencies => rw [hlawful.blockers]; exact hfirst.dependencies
  have haction := (hbatch.ready ready mem_cons_self).expected
  have hgets := htries.getsOn tries _ hmoved.calls _ haction _ hdue
  have htried := hmoved.executed hlawful hnodup htries haction hdue
  cases hworked with
  | blocked hstate hblockers => exact .inl ⟨_, rfl, hblockers, _, rfl⟩
  | bounded hstate hturn hreached => exact absurd h.bounded (Nat.not_lt.mpr hreached)
  | drained hstate hturn hbudget => exact absurd rfl hbudget
  | raised hstate hblockers hlimit hraised =>
    rw [hblockers rfl, hgets.returns] at hraised
    cases hraised
  | executed hstate hblockers hlimit hchecked =>
    cases hblockers rfl
    have htrouble : ¬ Trouble ports expected before ready.action.actionId
        (ports.execute (ports.blockers progress.world).1 ready.action ready.operation).1 := by
      rintro (hsame | ⟨action, hmem, hmismatch⟩)
      · apply hgets.changes
        rw [hsame, hlawful.blockers]
        exact (hbatch.current ready mem_cons_self).symm
      · exact (htried.alive action hmem).1 hmismatch
    cases hchecked with
    | ended hturn hbad => exact absurd hbad htrouble
    | endedAgain hturn hbad => exact absurd hbad htrouble
    | onward hfull => exact .inr ⟨id, Nat.lt_succ_self _, _, htried.after expected⟩
    | broken => exact .inr ⟨id, Nat.lt_succ_self _, _, (htried.after _).after expected⟩
    | next hfull hcomplete => exact .inr ⟨id, Nat.lt_succ_self _, _, htried.after _⟩

/-- The work on a batch is blocked, or plans again after some try. -/
theorem Batch.turn_trying (hlawful : ports.Lawful) (hnodup : (expected.map (·.actionId)).Nodup)
    (htries : FourTries ports expected start) (run : FrozenBacktestRun)
    (plan : BacktestExecutionPlan) (observed : List BacktestActionObservation)
    {left : List BacktestReadyAction}
    (hne : left ≠ []) (hbatch : Batch ports expected none before left progress)
    (h : Trying ports expected start tries progress) :
    (∃ plan', (turn ports run expected none plan before observed left progress).1
        = .returned plan' ∧ Blocked ports plan')
      ∨ ¬ (turn ports run expected none plan before observed left progress).1.Ended
        ∧ progress.transitions
          < (turn ports run expected none plan before observed left progress).2.transitions
        ∧ ∃ tries', Trying ports expected start tries'
          (turn ports run expected none plan before observed left progress).2 := by
  induction left generalizing progress tries with
  | nil => exact absurd rfl hne
  | cons ready rest ih =>
    have hworked := @workOn_worked W ports run expected none before ready progress
      hlawful hnodup (hbatch.ready ready mem_cons_self).expected plan (rest = [])
    have hkept := hbatch.worked hlawful hworked
    have htried := hbatch.worked_trying hlawful hnodup htries h hworked
    unfold turn
    generalize hresult : workOn ports run expected none plan before ready
      (decide (rest = [])) progress = result at hkept htried ⊢
    obtain ⟨step, progress'⟩ := result
    cases step with
    | returned plan' => exact htried
    | failed fault => exact htried
    | onward observed' => exact htried
    | next =>
      rcases htried with ⟨plan', heq, -⟩ | ⟨-, hlt, tries', htrying⟩
      · cases heq
      · rcases hkept.2 with hended | ⟨observed', heq, -⟩ | ⟨hfull, -, hrest⟩
        · exact hended.elim
        · cases heq
        · rcases ih (of_decide_eq_false hfull) hrest htrying with
            hblocked | ⟨hgoes, hmore, htrying'⟩
          · exact .inl hblocked
          · exact .inr ⟨hgoes, hlt.trans hmore, htrying'⟩

/-- With fuel for the tries that are left, the loop completes or is blocked. -/
theorem Planning.driveLoop_completes (hlawful : ports.Lawful) (hne : expected ≠ [])
    (hordered : TopologicallyOrdered expected) (htries : FourTries ports expected start)
    (run : FrozenBacktestRun) (fuel : Nat) {observed : List BacktestActionObservation}
    (hplanning : Planning ports expected none observed progress)
    (h : Trying ports expected start tries progress)
    (hfuel : maxTransitions expected ≤ fuel + progress.transitions) :
    ∃ plan, (driveLoop ports run expected none fuel observed progress).1 = .ok plan
      ∧ (plan.executionState = .completed ∨ Blocked ports plan) := by
  induction fuel generalizing observed progress tries with
  | zero =>
    have hbounded := h.bounded
    omega
  | succ fuel ih =>
    obtain ⟨world, hstate, hnow⟩ := hplanning.now
    have halive : ∀ action ∈ expected, ports.state world action.actionId ≠ .mismatch
          ∧ ports.state world action.actionId ≠ .failedTerminal := by
      rw [hstate]
      exact h.alive
    have herror : (reconcile run expected observed).executionState ≠ .integrityError := by
      intro hbad
      rw [hnow] at hbad
      obtain ⟨action, haction, hmismatch⟩ :=
        exists_mismatch (fun _ hmem => hmem) hordered.nodup hbad
      exact (halive action haction).1 hmismatch
    unfold driveLoop
    rw [if_neg herror]
    split
    next hcompleted => exact ⟨_, rfl, .inl hcompleted⟩
    next hincomplete =>
      have hready : (reconcile run expected observed).readyActions ≠ [] := by
        rcases reconcile_progress hne hordered run observed with
          hcompleted | hbad | ⟨-, action, haction, hfailed⟩ | hready
        · exact absurd hcompleted hincomplete
        · exact absurd hbad herror
        · rw [hnow, stateOf_observe hordered.nodup haction] at hfailed
          exact absurd hfailed (halive action haction).2
        · exact hready
      rw [if_neg (fun hfailed => hready hfailed.2), if_neg hready]
      have hbatch := hplanning.batch hordered.nodup hready
      have hturn := hbatch.turn_kept hlawful hordered.nodup run
        (reconcile run expected observed) observed hready
      have htried := hbatch.turn_trying hlawful hordered.nodup htries run
        (reconcile run expected observed) observed hready h
      generalize turn ports run expected none (reconcile run expected observed)
        (byId observed) observed (reconcile run expected observed).readyActions
        progress = result at hturn htried ⊢
      obtain ⟨step, progress'⟩ := result
      rcases htried with ⟨plan, heq, hblockers⟩ | ⟨hgoes, hlt, tries', htrying⟩
      · cases heq
        exact ⟨plan, rfl, .inr hblockers⟩
      · rcases hturn.2 with hended | ⟨observed', heq, hagain⟩
        · exact absurd hended hgoes
        · cases heq
          exact ih hagain htrying (by dsimp only at hlt; omega)

theorem driveActions_completes (hlawful : ports.Lawful) (hne : expected ≠ [])
    (hordered : TopologicallyOrdered expected) (htries : FourTries ports expected start)
    (run : FrozenBacktestRun) (requireUnstarted : Bool)
    (hunstarted : requireUnstarted = true →
      ∀ action ∈ expected, ports.state start action.actionId = .absent) :
    ∃ plan, (driveActions ports run expected none requireUnstarted start).1 = .ok plan
      ∧ (plan.executionState = .completed ∨ Blocked ports plan) := by
  have hplanning := @planning_start W ports expected none hlawful start
  have hstart : Trying ports expected start (fun _ => 0) ⟨start, [], 0⟩ :=
    { calls := .start
      alive := htries.alive
      few := fun _ _ => .inl (by decide)
      counted := by simp }
  have htrying := (hstart.after expected).blockers hlawful
  unfold driveActions
  dsimp only
  split
  next hblocked => exact ⟨_, rfl, .inr ⟨hblocked, _, rfl⟩⟩
  next =>
    split
    next hevidence =>
      obtain ⟨hrequire, observation, hobservation, hstate⟩ := hevidence
      obtain ⟨action, haction, -, heq⟩ := mem_observe hobservation
      exact absurd (heq.trans (hunstarted hrequire action haction)) hstate
    next =>
      exact hplanning.driveLoop_completes hlawful hne hordered htries run _ htrying (Nat.le_refl _)

end Completion

-- ==== the executor

def datasetThenOutcome : List BacktestExpectedAction :=
  [⟨1, .materializeDataset, none, []⟩, ⟨2, .settleOutcome, none, [1]⟩]

def completingPorts : Ports (Nat → BacktestObservedState) where
  state := id
  researchState _ _ := .notApplicable
  execute world action _ := (Function.update world action.actionId .matchedComplete, none)
  blockers world := (world, [])
  late world := (world, false)

theorem completingPorts_execute (world : Nat → BacktestObservedState)
    (action : BacktestExpectedAction) (operation : BacktestNextOperation) :
    completingPorts.state (completingPorts.execute world action operation).1
      = Function.update world action.actionId .matchedComplete := rfl

theorem completingPorts_lawful : completingPorts.Lawful where
  others world action operation actionId hne := by
    rw [completingPorts_execute, Function.update_of_ne hne]
    rfl
  stable world action operation _ := by rw [completingPorts_execute, Function.update_self]
  blockers _ := rfl
  late _ := rfl

theorem datasetThenOutcome_ordered : TopologicallyOrdered datasetThenOutcome where
  nodup := by decide
  before := by
    intro earlier action later heq dependency hdependency
    rcases earlier with _ | ⟨first, _ | ⟨second, earlier⟩⟩
    · cases heq
      cases hdependency
    · cases heq
      exact hdependency
    · have hlength := congrArg List.length heq
      simp [datasetThenOutcome] at hlength

theorem datasetThenOutcome_tries :
    FourTries completingPorts datasetThenOutcome (fun _ => .absent) where
  alive _ _ := ⟨nofun, nofun⟩
  getsOn tries world _ action _ operation hdue := by
    have hcomplete : completingPorts.state
        (completingPorts.execute world action operation).1 action.actionId = .matchedComplete := by
      rw [completingPorts_execute, Function.update_self]
    constructor
    case returns => rfl
    case changes =>
      intro hsame
      have hoperation := hdue.operation
      rw [← hsame, hcomplete] at hoperation
      cases hoperation
    case alive =>
      rw [hcomplete]
      decide
    case completes => exact fun _ => hcomplete

end MarketRegimeAlpha.ResearchQualification.BacktestExecution
