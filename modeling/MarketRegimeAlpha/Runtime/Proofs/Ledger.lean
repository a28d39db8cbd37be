/-
The attempt ledger of a Run: what the attempts of a step say about the
step, and that every change keeps it so.

`StepOk` is the invariant of one step and its attempts in creation
order. The attempts are numbered and fenced `1 … n`, the step's fence is
`n`, and `n` is within the step's budget; all attempts before the latest
are spent, and the latest one fits the step's state and is its current
attempt exactly while it is live. `Ledger` says so of every step, with
the ids distinct and every attempt on a step of the run.

The lemmas about `StepOk` follow the ways a step's list of attempts can
grow or change: nothing yet (`StepOk.unstarted`), one more attempt
(`StepOk.push`), and the latest attempt moved on (`StepOk.replace`).
-/
import MarketRegimeAlpha.Runtime.Changes

namespace MarketRegimeAlpha.Runtime

open Lib List

-- ==== one step

/-- The attempts a step has had, in view of the state it is in. -/
inductive History (step : StepRow) : List AttemptRow → Prop
  | fresh : step.state = .pending ∨ step.state = .ready →
      step.currentAttemptId = none → History step []
  | latest {earlier : List AttemptRow} {attempt : AttemptRow} :
      (∀ a ∈ earlier, a.state.spent = true) →
      fits step.state attempt.state = true →
      step.currentAttemptId = currentOf attempt →
      History step (earlier ++ [attempt])

structure StepOk (step : StepRow) (attempts : List AttemptRow) : Prop where
  history : History step attempts
  numbers : attempts.map (·.attemptNo) = List.range' 1 attempts.length
  fences : attempts.map (·.fenceToken) = List.range' 1 attempts.length
  fence : step.currentFence = attempts.length
  budget : attempts.length ≤ step.maxAttempts
  tries : 1 ≤ step.maxAttempts
  queued : step.state = .ready → step.readyAt.isSome

variable {a : AttemptState} {s : StepState}

theorem fits_live (h : fits s a = true) (ha : a.live = true) :
    (s = .claimed ∧ a = .claimed) ∨ (s = .running ∧ a = .running) := by
  revert h ha
  cases s <;> cases a <;> decide

theorem fits_state (h : fits s a = true) :
    s = .ready ∨ s = .claimed ∨ s = .running ∨ s = .waiting ∨ s = .succeeded ∨ s = .failed := by
  revert h
  cases s <;> cases a <;> decide

theorem not_live_of_spent (h : a.spent = true) : a.live = false := by
  revert h
  cases a <;> decide

variable {step step' : StepRow} {attempts earlier : List AttemptRow} {a a' : AttemptRow}

theorem StepOk.latest (h : StepOk step (earlier ++ [a])) :
    (∀ b ∈ earlier, b.state.spent = true) ∧ fits step.state a.state = true
      ∧ step.currentAttemptId = currentOf a := by
  have hhist := h.history
  generalize hl : earlier ++ [a] = l at hhist
  cases hhist with
  | fresh _ _ => simp at hl
  | latest hspent hfits hcur =>
    obtain ⟨rfl, hb⟩ := append_inj' hl rfl
    injection hb with hb
    subst hb
    exact ⟨hspent, hfits, hcur⟩

theorem StepOk.latest_no (h : StepOk step (earlier ++ [a])) :
    a.attemptNo = (earlier ++ [a]).length := by
  have hn := h.numbers
  rw [map_append, map_singleton, length_append,
    length_singleton, range'_concat, Nat.one_mul, Nat.add_comm]
    at hn
  simpa using (append_inj' hn rfl).2

theorem StepOk.latest_fence (h : StepOk step (earlier ++ [a])) :
    a.fenceToken = step.currentFence := by
  have hn := h.fences
  rw [map_append, map_singleton, length_append,
    length_singleton, range'_concat, Nat.one_mul, Nat.add_comm]
    at hn
  rw [h.fence, length_append, length_singleton]
  simpa using (append_inj' hn rfl).2

variable (h : StepOk step attempts)

include h in
theorem StepOk.live_latest (ha : a ∈ attempts) (hlive : a.state.live = true) :
    ∃ earlier, attempts = earlier ++ [a] ∧ fits step.state a.state = true
      ∧ step.currentAttemptId = some a.attemptId := by
  cases h.history with
  | fresh _ _ => cases ha
  | latest hspent hfits hcur =>
    rcases mem_append.mp ha with ha | ha
    · have := not_live_of_spent (hspent a ha)
      rw [hlive] at this
      cases this
    · rw [mem_singleton] at ha
      subst ha
      refine ⟨_, rfl, hfits, ?_⟩
      rw [hcur, currentOf, if_pos hlive]

include h in
/-- An attempt that succeeded is the latest one, and its step has
succeeded. -/
theorem StepOk.succeeded_latest (ha : a ∈ attempts) (hstate : a.state = .succeeded) :
    step.state = .succeeded ∧ ∃ earlier, attempts = earlier ++ [a] := by
  cases h.history with
  | fresh _ _ => cases ha
  | latest hspent hfits _ =>
    rcases mem_append.mp ha with ha | ha
    · have := hspent a ha
      rw [hstate] at this
      cases this
    · rw [mem_singleton] at ha
      subst ha
      rw [hstate] at hfits
      refine ⟨?_, _, rfl⟩
      revert hfits
      cases step.state <;> decide

include h in
theorem StepOk.pending_nil (hstate : step.state = .pending) : attempts = [] := by
  cases h.history with
  | fresh _ _ => rfl
  | latest _ hfits _ =>
    rw [hstate] at hfits
    cases hfits

include h in
/-- A step in none of the live states has no live attempt, and no
current one. -/
theorem StepOk.not_live (hstate : step.state.live = false) :
    (∀ b ∈ attempts, b.state.live = false) ∧ step.currentAttemptId = none := by
  cases h.history with
  | fresh _ hcur => exact ⟨fun _ hb => (not_mem_nil hb).elim, hcur⟩
  | @latest earlier b hspent hfits hcur =>
    have hb : b.state.live = false := by
      revert hfits hstate
      cases step.state <;> cases b.state <;> decide
    refine ⟨fun c hc => ?_, ?_⟩
    · rcases mem_append.mp hc with hc | hc
      · exact not_live_of_spent (hspent c hc)
      · rw [mem_singleton.mp hc]
        exact hb
    · rw [hcur, currentOf, if_neg (by rw [hb]; exact Bool.false_ne_true)]

include h in
theorem StepOk.spent (hstate : step.state = .pending ∨ step.state = .ready ∨ step.state = .waiting)
    :
    ∀ b ∈ attempts, b.state.spent = true := by
  cases h.history with
  | fresh _ _ => exact fun _ hb => (not_mem_nil hb).elim
  | @latest earlier b hspent hfits _ =>
    intro c hc
    rcases mem_append.mp hc with hc | hc
    · exact hspent c hc
    · rw [mem_singleton.mp hc]
      revert hfits
      rcases hstate with h | h | h <;> rw [h] <;> cases b.state <;> decide

theorem foldr_max_range' (n : Nat) : (List.range' 1 n).foldr max 0 = n := by
  induction n with
  | zero => rfl
  | succ n ih =>
    rw [range'_concat, foldr_append]
    have hmax : ∀ (l : List Nat) (m : Nat), l.foldr max m = max (l.foldr max 0) m := by
      intro l m
      induction l with
      | nil => exact (Nat.zero_max m).symm
      | cons x xs ihx => rw [foldr_cons, foldr_cons, ihx, Nat.max_assoc]
    rw [hmax, ih]
    simp only [foldr_cons, foldr_nil]
    omega

variable {db : Db}

/-- The attempts of a step are counted by the largest number among
them. -/
theorem StepOk.priorAttempts (h : StepOk step (db.attemptsOf step.stepId)) :
    db.priorAttempts step.stepId = (db.attemptsOf step.stepId).length := by
  unfold Db.priorAttempts
  rw [h.numbers, foldr_max_range']

-- ==== one step, one change

theorem StepOk.unstarted (hstate : step.state = .pending ∨ step.state = .ready)
    (hcur : step.currentAttemptId = none) (hfence : step.currentFence = 0)
    (htries : 1 ≤ step.maxAttempts) (hready : step.state = .ready → step.readyAt.isSome) :
    StepOk step [] :=
  ⟨.fresh hstate hcur, rfl, rfl, hfence, Nat.zero_le _, htries, hready⟩

include h in
theorem StepOk.push (hspent : ∀ b ∈ attempts, b.state.spent = true)
    (hplan : step'.toStepPlan = step.toStepPlan) (hno : a.attemptNo = attempts.length + 1)
    (hmax : a.attemptNo ≤ step.maxAttempts) (htoken : a.fenceToken = step.currentFence + 1)
    (hfence : step'.currentFence = a.fenceToken) (hcur : step'.currentAttemptId = currentOf a)
    (hfits : fits step'.state a.state = true) (hready : step'.state ≠ .ready) :
    StepOk step' (attempts ++ [a]) where
  history := .latest hspent hfits hcur
  numbers := by
    rw [map_append, h.numbers, length_append, length_singleton,
      range'_concat, map_singleton, hno, Nat.one_mul, Nat.add_comm]
  fences := by
    rw [map_append, h.fences, length_append, length_singleton,
      range'_concat, map_singleton, htoken, h.fence, Nat.one_mul,
      Nat.add_comm]
  fence := by rw [hfence, htoken, h.fence, length_append, length_singleton]
  budget := by
    rw [length_append, length_singleton, ← hno, congrArg StepPlan.maxAttempts hplan]
    exact hmax
  tries := by
    rw [congrArg StepPlan.maxAttempts hplan]
    exact h.tries
  queued := fun h => absurd h hready

theorem StepOk.replace (h : StepOk step (earlier ++ [a]))
    (hplan : step'.toStepPlan = step.toStepPlan) (hid : a'.toAttemptIdentity = a.toAttemptIdentity)
    (hfence : step'.currentFence = step.currentFence) (hcur : step'.currentAttemptId = currentOf a')
    (hfits : fits step'.state a'.state = true)
    (hready : step'.state = .ready → step'.readyAt.isSome) :
    StepOk step' (earlier ++ [a']) where
  history := .latest h.latest.1 hfits hcur
  numbers := by
    have hn := h.numbers
    simp only [map_append, map_singleton, length_append,
      length_singleton] at hn ⊢
    rw [← hn, congrArg AttemptIdentity.attemptNo hid]
  fences := by
    have hn := h.fences
    simp only [map_append, map_singleton, length_append,
      length_singleton] at hn ⊢
    rw [← hn, congrArg AttemptIdentity.fenceToken hid]
  fence := by
    rw [hfence, h.fence, length_append, length_append,
      length_singleton, length_singleton]
  budget := by
    have hb := h.budget
    rw [length_append, length_singleton] at hb ⊢
    rw [congrArg StepPlan.maxAttempts hplan]
    exact hb
  tries := by
    rw [congrArg StepPlan.maxAttempts hplan]
    exact h.tries
  queued := hready

include h in
theorem StepOk.requeue (hstate : step.state = .waiting)
    (hplan : step'.toStepPlan = step.toStepPlan) (hfence : step'.currentFence = step.currentFence)
    (hcur : step'.currentAttemptId = step.currentAttemptId) (hready : step'.state = .ready)
    (hqueued : step'.readyAt.isSome) :
    StepOk step' attempts := by
  have hspent := h.spent (Or.inr (Or.inr hstate))
  refine ⟨?_, h.numbers, h.fences, by rw [hfence, h.fence], ?_, ?_, fun _ => hqueued⟩
  · cases h.history with
    | fresh hs _ =>
      rw [hstate] at hs
      rcases hs with hs | hs <;> cases hs
    | @latest earlier b hearlier _ hcur' =>
      refine .latest hearlier ?_ (hcur.trans hcur')
      rw [hready]
      exact hspent b (by simp)
  · rw [congrArg StepPlan.maxAttempts hplan]
    exact h.budget
  · rw [congrArg StepPlan.maxAttempts hplan]
    exact h.tries

-- ==== the ledger

/-- The steps and attempts of a run. -/
structure Ledger (db : Db) : Prop where
  step_ids : (db.steps.map (·.stepId)).Nodup
  attempt_ids : (db.attempts.map (·.attemptId)).Nodup
  attempt_step : ∀ a ∈ db.attempts, ∃ s ∈ db.steps, s.stepId = a.stepId
  heartbeat : ∀ a ∈ db.attempts, a.lastHeartbeatAt ≤ db.clock
  step_ok : ∀ s ∈ db.steps, StepOk s (db.attemptsOf s.stepId)

variable {f : AttemptRow → AttemptRow} {g : StepRow → StepRow}

theorem setStep_ids (hk : Keeps f g) (i : Nat) :
    (db.setStep i g).steps.map (·.stepId) = db.steps.map (·.stepId) := by
  rw [setStep_steps, map_setRows fun s => hk.stepId s]

theorem readyWhere_ids (db : Db) (p : StepRow → Bool) :
    (db.readyWhere p).steps.map (·.stepId) = db.steps.map (·.stepId) := by
  exact map_setRows (f := makeReady db.clock) (fun _ => rfl) db.steps

theorem setAttempt_ids (hk : Keeps f g) (i : Nat) :
    (db.setAttempt i f).attempts.map (·.attemptId) = db.attempts.map (·.attemptId) := by
  rw [setAttempt_attempts, map_setRows fun a => hk.attemptId a]

theorem exists_of_ids {steps steps' : List StepRow}
    (h : steps'.map (·.stepId) = steps.map (·.stepId)) {i : Nat}
    (hi : ∃ s ∈ steps, s.stepId = i) : ∃ s ∈ steps', s.stepId = i := by
  obtain ⟨s, hs, rfl⟩ := hi
  have hmem : s.stepId ∈ steps'.map (·.stepId) := by
    rw [h]
    exact mem_map_of_mem hs
  obtain ⟨s', hs', hid⟩ := mem_map.mp hmem
  exact ⟨s', hs', hid⟩

variable {db : Db} {db' : Db}

/-- The ledger of a held step: its attempts end with the one that holds
it. -/
theorem Ledger.held (h : Ledger db) (hheld : Held db step a) :
    ∃ earlier, db.attemptsOf step.stepId = earlier ++ [a] ∧ fits step.state a.state = true
      ∧ step.currentAttemptId = some a.attemptId :=
  (h.step_ok step hheld.step_mem).live_latest
    (mem_attemptsOf.mpr ⟨hheld.attempt_mem, hheld.same⟩) hheld.live

theorem Ledger.readyWhere (h : Ledger db) {p : StepRow → Bool}
    (hp : ∀ s ∈ db.steps, p s = true → s.state = .pending) :
    Ledger (db.readyWhere p) where
  step_ids := by rw [readyWhere_ids]; exact h.step_ids
  attempt_ids := h.attempt_ids
  attempt_step := fun a ha => exists_of_ids (readyWhere_ids db p) (h.attempt_step a ha)
  heartbeat := h.heartbeat
  step_ok := by
    intro s hs
    obtain ⟨s₀, hs₀, rfl⟩ := mem_setRows.mp hs
    have hok := h.step_ok s₀ hs₀
    split
    · next hps =>
        have hpend := hp s₀ hs₀ hps
        have hnil : db.attemptsOf s₀.stepId = [] := hok.pending_nil hpend
        show StepOk (makeReady db.clock s₀) (db.attemptsOf s₀.stepId)
        rw [hnil]
        rw [hnil] at hok
        exact .unstarted (Or.inr rfl) (hok.not_live (by rw [hpend]; rfl)).2 hok.fence hok.tries
          fun _ => rfl
    · exact hok

theorem Ledger.of_rows (h : Ledger db) (hsteps : db'.steps = db.steps)
    (hattempts : db'.attempts = db.attempts) (hclock : db.clock ≤ db'.clock) : Ledger db' where
  step_ids := by rw [hsteps]; exact h.step_ids
  attempt_ids := by rw [hattempts]; exact h.attempt_ids
  attempt_step := by rw [hsteps, hattempts]; exact h.attempt_step
  heartbeat := by
    rw [hattempts]
    exact fun a ha => Int.le_trans (h.heartbeat a ha) hclock
  step_ok := by
    intro s hs
    rw [hsteps] at hs
    rw [attemptsOf_congr hattempts]
    exact h.step_ok s hs

/-- Moving the latest attempt of a held step keeps the ledger. -/
theorem Ledger.move (h : Ledger db) (hheld : Held db step a) (hk : Keeps f g)
    (hbeat : (f a).lastHeartbeatAt ≤ db.clock) (hfence : (g step).currentFence = step.currentFence)
    (hcur : (g step).currentAttemptId = currentOf (f a))
    (hfits : fits (g step).state (f a).state = true)
    (hready : (g step).state = .ready → (g step).readyAt.isSome) :
    Ledger ((db.setAttempt a.attemptId f).setStep step.stepId g) where
  step_ids := by rw [setStep_ids hk]; exact h.step_ids
  attempt_ids := by
    rw [setStep_attempts, setAttempt_ids hk]
    exact h.attempt_ids
  attempt_step := by
    intro b hb
    refine exists_of_ids (setStep_ids hk step.stepId) ?_
    rcases (mem_setAttempt h.attempt_ids hheld.attempt_mem).mp hb with
      rfl | ⟨hb, -⟩
    · rw [hk.attempt_stepId]
      exact h.attempt_step a hheld.attempt_mem
    · exact h.attempt_step b hb
  heartbeat := by
    intro b hb
    rcases (mem_setAttempt h.attempt_ids hheld.attempt_mem).mp hb with
      rfl | ⟨hb, -⟩
    · exact hbeat
    · exact h.heartbeat b hb
  step_ok := by
    obtain ⟨earlier, hearlier, -, -⟩ := h.held hheld
    intro s hs
    rw [attemptsOf_congr (setStep_attempts _ _ _)]
    rcases (mem_setStep (db.setAttempt a.attemptId f) h.step_ids
      hheld.step_mem).mp hs with rfl | ⟨hs, hne⟩
    · rw [hk.stepId, ← hheld.same, attemptsOf_setAttempt hk h.attempt_ids
        (by rw [hheld.same]; exact hearlier)]
      have hok := h.step_ok step hheld.step_mem
      rw [hearlier] at hok
      exact hok.replace (hk.plan step) (hk.identity a) hfence hcur hfits hready
    · rw [attemptsOf_setAttempt_other hk h.attempt_ids hheld.attempt_mem
        (by rw [hheld.same]; exact hne.symm)]
      exact h.step_ok s hs

/-- A fresh attempt on an idle step keeps the ledger. -/
theorem Ledger.attach (h : Ledger db) (hstep : step ∈ db.steps)
    (hstate : step.state = .pending ∨ step.state = .ready) (hsame : a.stepId = step.stepId)
    (hfresh : ∀ b ∈ db.attempts, b.attemptId ≠ a.attemptId)
    (hno : a.attemptNo = db.priorAttempts step.stepId + 1) (hmax : a.attemptNo ≤ step.maxAttempts)
    (htoken : a.fenceToken = step.currentFence + 1) (hbeat : a.lastHeartbeatAt = db.clock)
    (hk : Keeps id g) (hfence : (g step).currentFence = a.fenceToken)
    (hcur : (g step).currentAttemptId = currentOf a) (hfits : fits (g step).state a.state = true)
    (hready : (g step).state ≠ .ready) :
    Ledger ((db.addAttempt a).setStep step.stepId g) where
  step_ids := by rw [setStep_ids hk]; exact h.step_ids
  attempt_ids := by
    show ((db.attempts ++ [a]).map (·.attemptId)).Nodup
    rw [map_append, map_singleton, nodup_append]
    refine ⟨h.attempt_ids, by simp, ?_⟩
    intro i hi j hj
    obtain ⟨b, hb, rfl⟩ := mem_map.mp hi
    rw [mem_singleton.mp hj]
    exact hfresh b hb
  attempt_step := by
    intro b hb
    refine exists_of_ids (setStep_ids hk step.stepId) ?_
    rcases mem_append.mp hb with hb | hb
    · exact h.attempt_step b hb
    · rw [mem_singleton.mp hb]
      exact ⟨step, hstep, hsame.symm⟩
  heartbeat := by
    intro b hb
    rcases mem_append.mp hb with hb | hb
    · exact h.heartbeat b hb
    · rw [mem_singleton.mp hb]
      exact Int.le_of_eq hbeat
  step_ok := by
    intro s hs
    rw [attemptsOf_congr (setStep_attempts _ _ _), attemptsOf_addAttempt]
    rcases (mem_setStep (db.addAttempt a) h.step_ids hstep).mp hs with
      rfl | ⟨hs, hne⟩
    · have hok := h.step_ok step hstep
      rw [hk.stepId, if_pos hsame]
      refine hok.push (hok.spent ?_) (hk.plan step) ?_ hmax htoken hfence hcur hfits hready
      · rcases hstate with hs | hs
        · exact Or.inl hs
        · exact Or.inr (Or.inl hs)
      · rw [hno, hok.priorAttempts]
    · rw [if_neg (by rw [hsame]; exact hne.symm)]
      exact h.step_ok s hs

theorem Ledger.requeue (h : Ledger db) (hstep : step ∈ db.steps) (hstate : step.state = .waiting)
    (hk : Keeps id g) (hfence : (g step).currentFence = step.currentFence)
    (hcur : (g step).currentAttemptId = step.currentAttemptId) (hready : (g step).state = .ready)
    (hqueued : (g step).readyAt.isSome) :
    Ledger (db.setStep step.stepId g) where
  step_ids := by rw [setStep_ids hk]; exact h.step_ids
  attempt_ids := h.attempt_ids
  attempt_step := fun b hb => exists_of_ids (setStep_ids hk step.stepId) (h.attempt_step b hb)
  heartbeat := h.heartbeat
  step_ok := by
    intro s hs
    rcases (mem_setStep db h.step_ids hstep).mp hs with rfl | ⟨hs, -⟩
    · rw [hk.stepId]
      exact (h.step_ok step hstep).requeue hstate (hk.plan step) hfence hcur hready hqueued
    · exact h.step_ok s hs

/-- Every change keeps the ledger. -/
theorem Ledger.change {resumed : Option Nat} (h : Ledger db)
    (hc : Change db resumed db') : Ledger db' := by
  cases hc with
  | tick d => exact h.of_rows rfl rfl (by show db.clock ≤ _ + _; omega)
  | start _ =>
    have hrun : Ledger (db.setRun .running) := h.of_rows rfl rfl (Int.le_refl _)
    refine hrun.readyWhere ?_
    intro s _ hs
    exact beq_iff_eq.mp (Bool.and_eq_true_iff.mp hs).1
  | attach _ _ hstep hstate hsame hfresh hno hmax htoken hbeat hk hfence hcur hfits htarget =>
      refine Ledger.of_rows (h.attach hstep hstate hsame hfresh hno hmax
        htoken hbeat hk hfence hcur hfits ?_) (settle_steps _ _)
        (settle_attempts _ _) (Int.le_of_eq (settle_clock _ _).symm)
      intro hr
      rcases htarget with ⟨-, ht⟩ | ht <;> rw [ht] at hr <;> cases hr
  | move hheld hk hbeat hfence hcur hfits hready _ =>
    exact Ledger.of_rows (h.move hheld hk hbeat hfence hcur hfits
      fun hr => (hready hr).1) (settle_steps _ _) (settle_attempts _ _)
      (Int.le_of_eq (settle_clock _ _).symm)
  | complete hheld hk hbeat hfence hcur hattempt hstep hdb =>
    subst hdb
    have hmove := h.move hheld hk hbeat hfence (by rw [hcur, currentOf, hattempt]; rfl)
      (by rw [hattempt, hstep]; rfl)
      (fun hr => by rw [hstep] at hr; cases hr)
    refine Ledger.of_rows (hmove.readyWhere ?_) (finish_steps _)
      (finish_attempts _) (Int.le_of_eq (finish_clock _).symm)
    intro s _ hs
    unfold Db.isReleased at hs
    rw [Bool.and_eq_true_iff, Bool.and_eq_true_iff] at hs
    exact beq_iff_eq.mp hs.1.1
  | resume _ hstep hstate hk hfence hcur hready hqueued =>
    exact Ledger.of_rows (h.requeue hstep hstate hk hfence hcur hready
      hqueued) rfl rfl (Int.le_refl _)

theorem Fresh.ledger (h : Fresh db) : Ledger db where
  step_ids := h.step_ids
  attempt_ids := by rw [h.no_attempts]; exact nodup_nil
  attempt_step := by
    rw [h.no_attempts]
    exact fun _ ha => (not_mem_nil ha).elim
  heartbeat := by
    rw [h.no_attempts]
    exact fun _ ha => (not_mem_nil ha).elim
  step_ok := by
    intro s hs
    have hnil : db.attemptsOf s.stepId = [] := by
      unfold Db.attemptsOf
      rw [h.no_attempts]
      rfl
    obtain ⟨hstate, hfence, hcur, htries⟩ := h.rows s hs
    rw [hnil]
    exact .unstarted (Or.inl hstate) hcur hfence htries fun hr => by
      rw [hstate] at hr
      cases hr

end MarketRegimeAlpha.Runtime
