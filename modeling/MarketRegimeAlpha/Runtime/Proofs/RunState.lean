/-
The run-level invariant: which step states a run state allows, and what
a pending step waits for.

# The shape of it

At most one step is busy — claimed, running, waiting or failed — and it
decides the run's state; every other step is pending, ready or done.
`RunOk` adds the two halves of readiness: a pending step of a started
run has an unfinished predecessor (`blocked`), and a step past pending
has none (`met`), except that a deadline may fail a step early.

A change sets one step and moves the run by that step's new state, so
all but one of the shapes are `RunOk.settle`; success is the other one,
where the released successors are exactly the pending steps that nothing
blocks any more.
-/
import MarketRegimeAlpha.Runtime.Proofs.Ledger

namespace MarketRegimeAlpha.Runtime

open Lib List

-- ==== step states

variable (state : StepState)

/-- Neither busy nor out of the game. -/
def StepState.idle : Bool :=
  state == .pending || state == .ready || state == .succeeded

def StepState.busy : Bool :=
  state == .claimed || state == .running || state == .waiting
    || state == .failed

def allows (run : RunState) (step : StepState) : Bool :=
  match run with
  | .queued => step == .pending
  | .running => step.idle || step.live
  | .waiting => step.idle || step == .waiting
  | .failed => step.idle || step == .failed
  | .succeeded => step == .succeeded
  | _ => false

variable {s : StepState}

theorem busy_of_live (h : s.live = true) : s.busy = true := by
  revert h
  cases s <;> decide

theorem live_of_busy (h : allows .running s = true) (hb : s.busy = true) : s.live = true := by
  revert h hb
  cases s <;> decide

variable {r : RunState}

theorem idle_of_allows (h : allows r s = true) (hb : s.busy = false) : s.idle = true := by
  revert h hb
  cases r <;> cases s <;> decide

theorem allows_of_idle (h : s.idle = true) (hr : r = .running ∨ r = .waiting ∨ r = .failed) :
    allows r s = true := by
  rcases hr with rfl | rfl | rfl <;> simp [allows, h]

/-- An idle predecessor blocks its successor until it has succeeded,
under either kind of dependency. -/
theorem blocks_of_idle (h : s.idle = true) (kind : DependencyKind) :
    kind.blocks s = true ↔ s ≠ .succeeded := by
  revert h
  cases s <;> cases kind <;> decide

def settled : StepState → RunState
  | .waiting => .waiting
  | .failed => .failed
  | _ => .running

theorem settle_state (db : Db) (h : db.run.state = .running)
    (t : StepState) : (db.settle t).run.state = settled t := by
  cases t <;> first | exact h | rfl

-- ==== the invariant

structure RunOk (db : Db) : Prop where
  allowed : ∀ s ∈ db.steps, allows db.run.state s.state = true
  one_busy : ∀ s ∈ db.steps, ∀ t ∈ db.steps, s.state.busy = true →
    t.state.busy = true → s.stepId = t.stepId
  waiting : db.run.state = .waiting → ∃ s ∈ db.steps, s.state = .waiting
  unfinished : db.run.state ≠ .succeeded → ∃ s ∈ db.steps, s.state ≠ .succeeded
  blocked : db.run.state ≠ .queued → ∀ s ∈ db.steps, s.state = .pending →
    ∃ d ∈ db.dependencies, d.successorStepId = s.stepId
      ∧ ∃ p ∈ db.steps, p.stepId = d.predecessorStepId ∧ p.state ≠ .succeeded
  met : ∀ s ∈ db.steps, s.state ≠ .pending → s.state ≠ .failed →
    ∀ d ∈ db.dependencies, d.successorStepId = s.stepId →
      ∀ p ∈ db.steps, p.stepId = d.predecessorStepId → p.state = .succeeded
  known : ∀ d ∈ db.dependencies, ∃ p ∈ db.steps, p.stepId = d.predecessorStepId

variable {db : Db} {i : Nat}

theorem hasDependency_iff : db.hasDependency i = true
      ↔ ∃ d ∈ db.dependencies, d.successorStepId = i := by
  unfold Db.hasDependency
  simp only [any_eq_true, beq_iff_eq]

theorem hasUnmetDependency_iff : db.hasUnmetDependency i = true
      ↔ ∃ d ∈ db.dependencies, d.successorStepId = i
        ∧ ∃ p ∈ db.steps, p.stepId = d.predecessorStepId
          ∧ d.dependencyKind.blocks p.state = true := by
  unfold Db.hasUnmetDependency
  simp only [any_eq_true, Bool.and_eq_true, beq_iff_eq]

theorem hasLiveStep_iff : db.hasLiveStep = true ↔ ∃ s ∈ db.steps, s.state.live = true := by
  unfold Db.hasLiveStep
  rw [any_eq_true]

-- ==== one step at a time

variable {db : Db} {step : StepRow} {f : AttemptRow → AttemptRow} {g : StepRow → StepRow}
  {db' : Db} {resumed : Option Nat} {a : AttemptRow}

/-- Setting the step that decides the run, and the run by it. `db₀` is
the state with the attempts already updated. -/
theorem RunOk.settle (h : RunOk db) (db₀ : Db) (hids : (db.steps.map (·.stepId)).Nodup)
    (hsteps : db₀.steps = db.steps)
    (hdeps : db₀.dependencies = db.dependencies)
    (hr : db.run.state = .running ∨ db.run.state = .waiting)
    (hstep : step ∈ db.steps)
    (hothers : ∀ s ∈ db.steps, s.state.busy = true → s.stepId = step.stepId)
    (hk : Keeps f g) (hfrom : step.state ≠ .succeeded)
    (hto : (g step).state ≠ .succeeded ∧ (g step).state ≠ .pending)
    (hpend : step.state = .pending → (g step).state = .failed)
    (hfail : step.state ≠ .failed)
    (hallow : allows (settled (g step).state) (g step).state = true)
    (hdb' : db'.steps = (db₀.setStep step.stepId g).steps)
    (hdeps' : db'.dependencies = db₀.dependencies)
    (hrun : db'.run.state = r) (hsettled : r = settled (g step).state) :
    RunOk db' := by
  have hmem : ∀ x, x ∈ db'.steps ↔ x = g step ∨ (x ∈ db.steps ∧ x.stepId ≠ step.stepId) := by
    intro x
    rw [hdb', mem_setStep db₀ (by rw [hsteps]; exact hids) (by rw [hsteps]; exact hstep), hsteps]
  -- every other step is idle, before and after
  have hidle : ∀ s ∈ db.steps, s.stepId ≠ step.stepId → s.state.idle = true := by
    intro s hs hne
    refine idle_of_allows (h.allowed s hs) ?_
    cases hb : s.state.busy with
    | false => rfl
    | true => exact absurd (hothers s hs hb) hne
  have hrset : r = .running ∨ r = .waiting ∨ r = .failed := by
    rw [hsettled]
    cases (g step).state <;> simp [settled]
  have hnotq : db.run.state ≠ .queued := by rcases hr with hr | hr <;> rw [hr] <;> decide
  have hdeps'' : db'.dependencies = db.dependencies := by rw [hdeps', hdeps]
  constructor
  case allowed =>
    intro x hx
    rw [hrun]
    rcases (hmem x).mp hx with rfl | ⟨hx, hne⟩
    · rw [hsettled]
      exact hallow
    · exact allows_of_idle (hidle x hx hne) hrset
  case one_busy =>
    have hid : ∀ x ∈ db'.steps, x.state.busy = true → x.stepId = step.stepId := by
      intro x hx hb
      rcases (hmem x).mp hx with rfl | ⟨hx, -⟩
      · exact hk.stepId step
      · exact hothers x hx hb
    intro x hx y hy hbx hby
    rw [hid x hx hbx, hid y hy hby]
  case waiting =>
    intro hw
    refine ⟨g step, (hmem _).mpr (Or.inl rfl), ?_⟩
    rw [hrun, hsettled] at hw
    revert hw
    cases (g step).state <;> simp [settled]
  case unfinished => exact fun _ => ⟨g step, (hmem _).mpr (Or.inl rfl), hto.1⟩
  case blocked =>
    intro _ x hx hp
    rw [hdeps'']
    rcases (hmem x).mp hx with rfl | ⟨hx, -⟩
    · exact absurd hp hto.2
    · obtain ⟨d, hd, hds, p, hpm, hpd, hps⟩ := h.blocked hnotq x hx hp
      refine ⟨d, hd, hds, ?_⟩
      by_cases hps' : p.stepId = step.stepId
      · exact ⟨g step, (hmem _).mpr (Or.inl rfl), by rw [hk.stepId, ← hps', hpd], hto.1⟩
      · exact ⟨p, (hmem _).mpr (Or.inr ⟨hpm, hps'⟩), hpd, hps⟩
  case met =>
    intro x hx hp hf d hd hds p hpm hpd
    rw [hdeps''] at hd
    -- the same step before the change was past pending as well
    obtain ⟨x₀, hx₀, hid₀, hp₀, hf₀⟩ : ∃ x₀ ∈ db.steps,
        x₀.stepId = x.stepId ∧ x₀.state ≠ .pending ∧ x₀.state ≠ .failed := by
      rcases (hmem x).mp hx with rfl | ⟨hx, -⟩
      · exact ⟨step, hstep, (hk.stepId step).symm, fun hs => hf (hpend hs), hfail⟩
      · exact ⟨x, hx, rfl, hp, hf⟩
    have hold := h.met x₀ hx₀ hp₀ hf₀ d hd (hds.trans hid₀.symm)
    rcases (hmem p).mp hpm with rfl | ⟨hpm, -⟩
    · exact absurd (hold step hstep (by rw [← hk.stepId, hpd])) hfrom
    · exact hold p hpm hpd
  case known =>
    intro d hd
    rw [hdeps''] at hd
    obtain ⟨p, hp, hpd⟩ := h.known d hd
    by_cases hps : p.stepId = step.stepId
    · exact ⟨g step, (hmem _).mpr (Or.inl rfl), by rw [hk.stepId, ← hps, hpd]⟩
    · exact ⟨p, (hmem _).mpr (Or.inr ⟨hp, hps⟩), hpd⟩

-- ==== readying steps

/-- Readying, in a run whose steps are all idle, every pending step that
has no unmet dependency. -/
theorem RunOk.ready (db₁ : Db) {p : StepRow → Bool} (hidle : ∀ s ∈ db₁.steps, s.state.idle = true)
    (hmet : ∀ s ∈ db₁.steps, s.state ≠ .pending →
      ∀ d ∈ db₁.dependencies, d.successorStepId = s.stepId →
        ∀ q ∈ db₁.steps, q.stepId = d.predecessorStepId → q.state = .succeeded)
    (hknown : ∀ d ∈ db₁.dependencies, ∃ q ∈ db₁.steps, q.stepId = d.predecessorStepId)
    (hp : ∀ s ∈ db₁.steps, p s = true ↔ s.state = .pending
      ∧ db₁.hasUnmetDependency s.stepId = false)
    (hsteps : db'.steps = setRows p (makeReady db₁.clock) db₁.steps)
    (hdeps : db'.dependencies = db₁.dependencies)
    (hrun : (db'.run.state = .running ∧ ∃ s ∈ db'.steps, s.state ≠ .succeeded)
      ∨ (db'.run.state = .succeeded ∧ ∀ s ∈ db'.steps, s.state = .succeeded)) : RunOk db' := by
  -- a step after is a step before, readied or as it was
  have hmem : ∀ x ∈ db'.steps, ∃ s ∈ db₁.steps, x.stepId = s.stepId
      ∧ ((p s = true ∧ x.state = .ready) ∨ (p s = false ∧ x.state = s.state)) := by
    intro x hx
    rw [hsteps] at hx
    obtain ⟨s, hs, rfl⟩ := mem_setRows.mp hx
    refine ⟨s, hs, ?_⟩
    cases hps : p s with
    | true => exact ⟨rfl, Or.inl ⟨rfl, rfl⟩⟩
    | false => exact ⟨rfl, Or.inr ⟨rfl, rfl⟩⟩
  have hback : ∀ s ∈ db₁.steps, ∃ x ∈ db'.steps, x.stepId = s.stepId
      ∧ (s.state ≠ .succeeded → x.state ≠ .succeeded)
      ∧ (s.state = .succeeded → x.state = .succeeded) := by
    intro s hs
    refine ⟨if p s then makeReady db₁.clock s else s, ?_, ?_, ?_, ?_⟩
    · rw [hsteps]
      exact mem_setRows.mpr ⟨s, hs, rfl⟩
    · split <;> rfl
    · split
      · intro _ hc
        cases hc
      · exact fun h => h
    · split
      · next hps =>
          intro hsucc
          rw [((hp s hs).mp hps).1] at hsucc
          cases hsucc
      · exact fun h => h
  have hidle' : ∀ x ∈ db'.steps, x.state.idle = true := by
    intro x hx
    obtain ⟨s, hs, -, ⟨-, hx⟩ | ⟨-, hx⟩⟩ := hmem x hx
    · rw [hx]
      rfl
    · rw [hx]
      exact hidle s hs
  have hbusy : ∀ x ∈ db'.steps, x.state.busy = false := by
    intro x hx
    have := hidle' x hx
    revert this
    cases x.state <;> decide
  have hunmet : ∀ i, db₁.hasUnmetDependency i = true ↔ ∃ d ∈ db₁.dependencies, d.successorStepId = i
        ∧ ∃ q ∈ db₁.steps, q.stepId = d.predecessorStepId ∧ q.state ≠ .succeeded := by
    intro i
    rw [hasUnmetDependency_iff]
    constructor
    · rintro ⟨d, hd, hds, q, hq, hqd, hb⟩
      exact ⟨d, hd, hds, q, hq, hqd, (blocks_of_idle (hidle q hq) _).mp hb⟩
    · rintro ⟨d, hd, hds, q, hq, hqd, hb⟩
      exact ⟨d, hd, hds, q, hq, hqd, (blocks_of_idle (hidle q hq) _).mpr hb⟩
  constructor
  case allowed =>
    intro x hx
    rcases hrun with ⟨hrun, -⟩ | ⟨hrun, hall⟩
    · rw [hrun]
      exact allows_of_idle (hidle' x hx) (Or.inl rfl)
    · rw [hrun, hall x hx]
      rfl
  case one_busy =>
    intro x hx _ _ hb
    rw [hbusy x hx] at hb
    cases hb
  case waiting =>
    intro hw
    rcases hrun with ⟨hrun, -⟩ | ⟨hrun, -⟩ <;> rw [hrun] at hw <;> cases hw
  case unfinished =>
    intro hs
    rcases hrun with ⟨-, hex⟩ | ⟨hrun, -⟩
    · exact hex
    · exact absurd hrun hs
  case blocked =>
    intro _ x hx hxp
    obtain ⟨s, hs, hid, ⟨-, hxs⟩ | ⟨hps, hxs⟩⟩ := hmem x hx
    · rw [hxp] at hxs
      cases hxs
    · have hspend : s.state = .pending := hxs ▸ hxp
      have hun : db₁.hasUnmetDependency s.stepId = true := by
        cases hu : db₁.hasUnmetDependency s.stepId with
        | true => rfl
        | false =>
          rw [(hp s hs).mpr ⟨hspend, hu⟩] at hps
          cases hps
      obtain ⟨d, hd, hds, q, hq, hqd, hqs⟩ := (hunmet _).mp hun
      obtain ⟨q', hq', hqid, hne, -⟩ := hback q hq
      rw [hdeps, hid]
      exact ⟨d, hd, hds, q', hq', hqid.trans hqd, hne hqs⟩
  case met =>
    intro x hx hxp _ d hd hds q hq hqd
    rw [hdeps] at hd
    obtain ⟨s, hs, hid, hxs⟩ := hmem x hx
    obtain ⟨q₀, hq₀, hqid, hqs⟩ := hmem q hq
    have hq₀s : q₀.state = .succeeded := by
      rcases hxs with ⟨hps, -⟩ | ⟨hps, hxs⟩
      · -- just readied: nothing of it was unmet
        have hno := ((hp s hs).mp hps).2
        by_cases hq₀s : q₀.state = .succeeded
        · exact hq₀s
        · have hun := (hunmet s.stepId).mpr ⟨d, hd, hds.trans hid, q₀, hq₀,
            hqid.symm.trans hqd, hq₀s⟩
          rw [hno] at hun
          cases hun
      · exact hmet s hs (hxs ▸ hxp) d hd (hds.trans hid) q₀ hq₀ (hqid.symm.trans hqd)
    rcases hqs with ⟨hpq, -⟩ | ⟨-, hqs⟩
    · rw [((hp q₀ hq₀).mp hpq).1] at hq₀s
      cases hq₀s
    · rw [hqs, hq₀s]
  case known =>
    intro d hd
    rw [hdeps] at hd
    obtain ⟨q, hq, hqd⟩ := hknown d hd
    obtain ⟨q', hq', hqid, -⟩ := hback q hq
    exact ⟨q', hq', hqid.trans hqd⟩

-- ==== every change

/-- Starting a queued run. -/
theorem RunOk.start (h : RunOk db) (hq : db.run.state = .queued) :
    RunOk ((db.setRun .running).readyWhere db.isRoot) := by
  have hpend : ∀ s ∈ db.steps, s.state = .pending := by
    intro s hs
    have := h.allowed s hs
    rw [hq] at this
    exact beq_iff_eq.mp this
  have hunmet : ∀ i, db.hasUnmetDependency i = db.hasDependency i := by
    intro i
    rw [Bool.eq_iff_iff, hasUnmetDependency_iff, hasDependency_iff]
    constructor
    · rintro ⟨d, hd, hds, -⟩
      exact ⟨d, hd, hds⟩
    · rintro ⟨d, hd, hds⟩
      obtain ⟨p, hp, hpd⟩ := h.known d hd
      refine ⟨d, hd, hds, p, hp, hpd, ?_⟩
      rw [hpend p hp]
      cases d.dependencyKind <;> decide
  refine RunOk.ready (db.setRun .running) (p := db.isRoot) ?_ ?_
    h.known ?_ rfl rfl (Or.inl ⟨rfl, ?_⟩)
  · intro s hs
    rw [hpend s hs]
    rfl
  · exact fun s hs hne => absurd (hpend s hs) hne
  · intro s _
    have hu : (db.setRun .running).hasUnmetDependency s.stepId
        = db.hasDependency s.stepId := hunmet s.stepId
    rw [hu]
    unfold Db.isRoot
    rw [Bool.and_eq_true, beq_iff_eq, Bool.not_eq_true']
  · obtain ⟨s, hs, -⟩ := h.unfinished (by rw [hq]; decide)
    refine ⟨_, mem_setRows.mpr ⟨s, hs, rfl⟩, ?_⟩
    split
    · intro hc
      cases hc
    · rw [hpend s hs]
      decide

theorem RunOk.held_busy (h : RunOk db) (hl : Ledger db)
    (hheld : Held db step a) : ∀ s ∈ db.steps, s.state.busy = true → s.stepId = step.stepId := by
  obtain ⟨-, -, hfits, -⟩ := hl.held hheld
  intro s hs hb
  refine h.one_busy s hs step hheld.step_mem hb ?_
  rcases fits_live hfits hheld.live with ⟨hst, -⟩ | ⟨hst, -⟩ <;> rw [hst] <;> rfl

/-- A complete run of idle steps is one whose steps have all
succeeded. -/
theorem complete_iff (hidle : ∀ s ∈ db.steps, s.state.idle = true) :
    db.complete = true ↔ ∀ s ∈ db.steps, s.state = .succeeded := by
  unfold Db.complete
  rw [Bool.and_eq_true, all_eq_true, all_eq_true]
  constructor
  · rintro ⟨hterm, -⟩ s hs
    have h₁ := hidle s hs
    have h₂ := hterm s hs
    revert h₁ h₂
    cases s.state <;> decide
  · intro hall
    refine ⟨fun s hs => ?_, fun s hs => ?_⟩ <;> rw [hall s hs]
    · rfl
    · simp

/-- The success of a held step. -/
theorem RunOk.complete (h : RunOk db) (hl : Ledger db) (hheld : Held db step a) (hk : Keeps f g)
    (hstate : (g step).state = .succeeded) {db₁ : Db}
    (hdb : db₁ = (db.setAttempt a.attemptId f).setStep step.stepId g) :
    RunOk (db₁.readyWhere db₁.isReleased).finish := by
  have hothers := h.held_busy hl hheld
  have hnotq : db.run.state ≠ .queued := by
    rw [hheld.running]
    decide
  have hmem : ∀ x, x ∈ db₁.steps ↔ x = g step ∨ (x ∈ db.steps ∧ x.stepId ≠ step.stepId) := by
    intro x
    rw [hdb]
    exact mem_setStep (db.setAttempt a.attemptId f) hl.step_ids hheld.step_mem
  have hdeps : db₁.dependencies = db.dependencies := by rw [hdb]; rfl
  have hidle : ∀ s ∈ db₁.steps, s.state.idle = true := by
    intro s hs
    rcases (hmem s).mp hs with rfl | ⟨hs, hne⟩
    · rw [hstate]
      rfl
    · refine idle_of_allows (h.allowed s hs) ?_
      cases hb : s.state.busy with
      | false => rfl
      | true => exact absurd (hothers s hs hb) hne
  -- a pending step had an unfinished predecessor, so it has a dependency
  have hp : ∀ s ∈ db₁.steps, db₁.isReleased s = true ↔ s.state = .pending
      ∧ db₁.hasUnmetDependency s.stepId = false := by
    intro s hs
    unfold Db.isReleased
    rw [Bool.and_eq_true, Bool.and_eq_true, beq_iff_eq, Bool.not_eq_true']
    constructor
    · rintro ⟨⟨hpend, -⟩, hun⟩
      exact ⟨hpend, hun⟩
    · rintro ⟨hpend, hun⟩
      refine ⟨⟨hpend, ?_⟩, hun⟩
      rcases (hmem s).mp hs with rfl | ⟨hs, -⟩
      · rw [hstate] at hpend
        cases hpend
      · obtain ⟨d, hd, hds, -⟩ := h.blocked hnotq s hs hpend
        exact hasDependency_iff.mpr ⟨d, by rw [hdeps]; exact hd, hds⟩
  have hmet : ∀ s ∈ db₁.steps, s.state ≠ .pending →
      ∀ d ∈ db₁.dependencies, d.successorStepId = s.stepId →
        ∀ q ∈ db₁.steps, q.stepId = d.predecessorStepId → q.state = .succeeded := by
    intro s hs hpend d hd hds q hq hqd
    rw [hdeps] at hd
    rcases (hmem q).mp hq with rfl | ⟨hq, -⟩
    · exact hstate
    · obtain ⟨-, -, hfits, -⟩ := hl.held hheld
      obtain ⟨s₀, hs₀, hid₀, hp₀, hf₀⟩ : ∃ s₀ ∈ db.steps,
          s₀.stepId = s.stepId ∧ s₀.state ≠ .pending ∧ s₀.state ≠ .failed := by
        rcases (hmem s).mp hs with rfl | ⟨hs₀, -⟩
        · refine ⟨step, hheld.step_mem, (hk.stepId step).symm, ?_, ?_⟩
            <;> rcases fits_live hfits hheld.live with ⟨hst, -⟩ | ⟨hst, -⟩
            <;> rw [hst] <;> decide
        · refine ⟨s, hs₀, rfl, hpend, ?_⟩
          intro hf
          have := hidle s hs
          rw [hf] at this
          cases this
      exact h.met s₀ hs₀ hp₀ hf₀ d hd (hds.trans hid₀.symm) q hq hqd
  have hknown : ∀ d ∈ db₁.dependencies, ∃ q ∈ db₁.steps, q.stepId = d.predecessorStepId := by
    intro d hd
    rw [hdeps] at hd
    have hids : db₁.steps.map (·.stepId) = db.steps.map (·.stepId) := by
      rw [hdb]
      exact setStep_ids hk step.stepId
    exact exists_of_ids hids (h.known d hd)
  refine RunOk.ready db₁ hidle hmet hknown hp (finish_steps _) (finish_dependencies _) ?_
  -- the readied steps are idle too, so completeness is success of all
  have hidle' : ∀ s ∈ (db₁.readyWhere db₁.isReleased).steps, s.state.idle = true := by
    intro x hx
    obtain ⟨s, hs, rfl⟩ := mem_setRows.mp hx
    split
    · rfl
    · exact hidle s hs
  have hrun : db₁.run.state = .running := by
    rw [hdb]
    exact hheld.running
  unfold Db.finish
  split
  · next hc => exact Or.inr ⟨rfl, (complete_iff hidle').mp hc⟩
  · next hc =>
      left
      refine ⟨hrun, ?_⟩
      by_contra hall
      refine hc ((complete_iff hidle').mpr fun s hs => ?_)
      by_contra hne
      exact hall ⟨s, hs, hne⟩

/-- Every change keeps the run-level invariant. -/
theorem RunOk.change (h : RunOk db) (hl : Ledger db) (hc : Change db resumed db') : RunOk db' := by
  cases hc with
  | tick _ => exact ⟨h.1, h.2, h.3, h.4, h.5, h.6, h.7⟩
  | start hq => exact h.start hq
  | @attach step a g hrun hlive hstep hstate _ _ _ _ _ _ hk _ _ _ htarget =>
    -- no step is live in a running run, so none is busy
    have hothers : ∀ s ∈ db.steps, s.state.busy = true → s.stepId = step.stepId := by
      intro s hs hb
      have hallow := h.allowed s hs
      rw [hrun] at hallow
      have hex := hasLiveStep_iff.mpr ⟨s, hs, live_of_busy hallow hb⟩
      rw [hlive] at hex
      cases hex
    have hrun' := settle_state ((db.addAttempt a).setStep step.stepId g) hrun (g step).state
    refine h.settle (db.addAttempt a) hl.step_ids rfl rfl
      (Or.inl hrun) hstep hothers hk ?_ ?_ ?_ ?_ ?_ (settle_steps _ _)
      (settle_dependencies _ _) hrun' rfl
    · rcases hstate with hs | hs <;> rw [hs] <;> decide
    · rcases htarget with ⟨-, ht⟩ | ht <;> rw [ht] <;> decide
    · intro hpend
      rcases htarget with ⟨hready, -⟩ | ht
      · rw [hpend] at hready
        cases hready
      · exact ht
    · rcases hstate with hs | hs <;> rw [hs] <;> decide
    · rcases htarget with ⟨-, ht⟩ | ht <;> rw [ht] <;> decide
  | @move step a f g hheld hk _ _ _ hfits _ hsucc =>
    obtain ⟨-, -, hfits₀, -⟩ := hl.held hheld
    have hst := fits_live hfits₀ hheld.live
    have hrun' := settle_state ((db.setAttempt a.attemptId f).setStep step.stepId g)
      hheld.running (g step).state
    refine h.settle (db.setAttempt a.attemptId f) hl.step_ids rfl
      rfl (Or.inl hheld.running) hheld.step_mem (h.held_busy hl hheld) hk
      ?_ ⟨hsucc, ?_⟩ ?_ ?_ ?_ (settle_steps _ _) (settle_dependencies _ _)
      hrun' rfl
    · rcases hst with ⟨hs, -⟩ | ⟨hs, -⟩ <;> rw [hs] <;> decide
    · intro hp
      rw [hp] at hfits
      cases hfits
    · intro hp
      rcases hst with ⟨hs, -⟩ | ⟨hs, -⟩ <;> rw [hs] at hp <;> cases hp
    · rcases hst with ⟨hs, -⟩ | ⟨hs, -⟩ <;> rw [hs] <;> decide
    · rcases fits_state hfits with ht | ht | ht | ht | ht | ht <;> rw [ht] <;> decide
  | complete hheld hk _ _ _ _ hstep hdb => exact h.complete hl hheld hk hstep hdb
  | @resume step g hrun hstep hstate hk _ _ hready _ =>
    refine h.settle db hl.step_ids rfl rfl (Or.inr hrun) hstep
      (fun s hs hb => ?_) hk ?_ ?_ ?_ ?_ ?_ rfl rfl rfl ?_
    · exact h.one_busy s hs step hstep hb (by rw [hstate]; rfl)
    · rw [hstate]; decide
    · rw [hready]; decide
    · intro hp
      rw [hstate] at hp
      cases hp
    · rw [hstate]; decide
    · rw [hready]; decide
    · rw [hready]; rfl

theorem Fresh.runOk (h : Fresh db) : RunOk db where
  allowed := by
    intro s hs
    rw [h.queued, (h.rows s hs).1]
    rfl
  one_busy := by
    intro s hs _ _ hb
    rw [(h.rows s hs).1] at hb
    cases hb
  waiting := by
    intro hw
    rw [h.queued] at hw
    cases hw
  unfinished := by
    intro _
    obtain ⟨s, hs⟩ := exists_mem_of_ne_nil _ h.nonempty
    exact ⟨s, hs, by rw [(h.rows s hs).1]; decide⟩
  blocked := fun hq => absurd h.queued hq
  met := fun s hs hp => absurd (h.rows s hs).1 hp
  known := h.known

theorem Change.dependencies (hc : Change db resumed db') : db'.dependencies = db.dependencies := by
  cases hc with
  | tick _ => rfl
  | start _ => rfl
  | attach => exact settle_dependencies _ _
  | move => exact settle_dependencies _ _
  | complete _ _ _ _ _ _ _ hdb =>
    subst hdb
    exact finish_dependencies _
  | resume => rfl

end MarketRegimeAlpha.Runtime
