/-
Every operation is a chain of writes.

An `UPDATE` of a tick row is read once (`updateTick_ok`): it matched no
row and changed nothing, or the trigger let the change of one row
through. Each operation is then taken apart into its statements, and each
statement is one of the writes.
-/
import MarketRegimeAlpha.Continuous.Proofs.Writes

namespace MarketRegimeAlpha.Continuous

open Lib List

namespace Journal

variable {j j' : Journal} {now leaseDuration : Instant} {claim : ClaimedRuntimeTick} {tick : Tick}

-- ==== tick rows

variable {runId tickId : String}

theorem tick?_some (h : j.tick? runId tickId = some tick) :
    runId = j.runId ∧ tick ∈ j.ticks ∧ tick.tickId = tickId := by
  unfold tick? at h
  split at h
  · next hrun =>
      have hid := find?_some h
      exact ⟨hrun, mem_of_find?_eq_some h, by simpa using hid⟩
  · cases h

variable {matching : Tick → Bool} {set : Tick → Tick} {row : Option Tick} {status : RunState}

theorem updateTick_ok (hkey : ∀ tick : Tick, tick.Same (set tick))
    (h : j.updateTick runId tickId matching set = .ok (row, j')) :
    (row = none ∧ j' = j) ∨ ∃ tick ∈ j.ticks, tick.tickId = tickId
      ∧ matching tick = true ∧ guardTickMutation tick (set tick) = .ok ()
      ∧ row = some (set tick)
      ∧ j' = { j with ticks := setTick (set tick) j.ticks } := by
  unfold updateTick at h
  split at h
  · cases h
    exact .inl ⟨rfl, rfl⟩
  · next tick hfound =>
      obtain ⟨-, hmem, hid⟩ := tick?_some hfound
      split at h
      · next hmatching =>
          simp only [bind_ok, pure_ok, Prod.mk.injEq] at h
          obtain ⟨⟨⟩, hguard, hrow, hj'⟩ := h
          refine .inr ⟨tick, hmem, hid, hmatching, hguard, hrow.symm, ?_⟩
          rw [← hj']
          unfold setTick
          rw [(hkey tick).tickId_eq, hid]
      · cases h
        exact .inl ⟨rfl, rfl⟩

theorem updateTick_writes (hkey : ∀ tick : Tick, tick.Same (set tick))
    (htoken : ∀ tick, (set tick).fencingToken = tick.fencingToken)
    (hleased : ∀ tick : Tick, tick.Leased → (set tick).Leased)
    (h : j.updateTick runId tickId matching set = .ok (row, j')) :
    Writes j j' := by
  rcases updateTick_ok hkey h with ⟨-, rfl⟩ | ⟨tick, hmem, -, -, hguard, -, rfl⟩
  · exact .refl
  · exact .single (.change hmem hguard (hkey tick) (htoken tick) (hleased tick))

theorem pointer_writes (hset : ∀ tick : Tick, (set tick).tickId = tick.tickId
      ∧ (set tick).tickSequence = tick.tickSequence
      ∧ (set tick).fencingToken = tick.fencingToken
      ∧ (set tick).status = tick.status ∧ (set tick).lease = tick.lease)
    (h : j.updateTick runId tickId matching set = .ok (row, j')) :
    Writes j j' := by
  refine updateTick_writes ?_ ?_ ?_ h
  · exact fun tick => ⟨(hset tick).1, (hset tick).2.1⟩
  · exact fun tick => (hset tick).2.2.1
  · intro tick hleased
    unfold Tick.Leased
    rw [(hset tick).2.2.2.1, (hset tick).2.2.2.2]
    exact hleased

theorem released_writes (h : j.updateTick runId tickId matching Tick.released = .ok (row, j')) :
    Writes j j' := by
  refine updateTick_writes ?_ ?_ ?_ h
  · exact fun _ => ⟨rfl, rfl⟩
  · exact fun _ => rfl
  · intro tick _
    simp [Tick.Leased, Tick.released]

theorem updateRun_writes (h : j.updateRun status = .ok j') : Writes j j' := by
  unfold updateRun at h
  simp only [bind_ok, pure_ok] at h
  obtain ⟨-, -, rfl⟩ := h
  exact .single (@Write.aside j status (j.version + 1) j.current j.decisions 0)

theorem note_writes {eventType : EventType} (h : eventType ≠ .tickClaimed)
    (tickId : Option String) (fencingToken : Option Nat) :
    Writes j (j.insertEvent tickId eventType now fencingToken) :=
  .single (.note h)

theorem updateRunState_writes (h : j.updateRunState status now = .ok j') : Writes j j' := by
  unfold updateRunState at h
  simp only [bind_ok, pure_ok] at h
  obtain ⟨j₁, hrun, rfl⟩ := h
  exact (updateRun_writes hrun).trans (note_writes (by decide) _ _)

-- ==== admitting

theorem admitTick_writes {command : RuntimeTickCommand} {sessionPhase : SessionPhase}
    (h : j.admitTick now command sessionPhase = .ok j') : Writes j j' := by
  unfold admitTick at h
  split at h
  · simp only [bind_ok, pure_ok] at h
    obtain ⟨-, -, rfl⟩ := h
    exact .refl
  · unfold updateRun at h
    simp only [bind_ok, pure_ok, require_ok] at h
    obtain ⟨-, -, -, -, -, hnew, -, -, j₁, ⟨-, -, rfl⟩, rfl⟩ := h
    refine .trans (.single (.admitted hnew rfl rfl ?_)) (note_writes (by decide) _ _)
    simp [Tick.Leased]

-- ==== claiming

variable {claimed : ClaimedRuntimeTick} {evidence : EvidenceCommit} {claimId runId tickId : String}

theorem claimLocked_writes {tickSequence version : Nat}
    (h : j.claimLocked now leaseDuration claimId runId tickId tickSequence
      version = .ok (claimed, j')) : Writes j j' := by
  unfold claimLocked at h
  simp only [bind_ok, pure_ok, fetchOne_ok] at h
  obtain ⟨⟨row, j₁⟩, hupdate, row', hrow, claimed', -, h⟩ := h
  subst hrow
  injection h with _ hj'
  have hkey : ∀ tick : Tick, tick.Same { tick with
      status := .inProgress
      version := tick.version + 1
      fencingToken := tick.fencingToken + 1
      lease := some ⟨claimId, now, now + leaseDuration, now⟩
      retryAt := none } := fun _ => ⟨rfl, rfl⟩
  rcases updateTick_ok hkey hupdate with
    ⟨hnone, -⟩ | ⟨tick, hmem, rfl, -, hguard, hrow, hj₁⟩
  · cases hnone
  · injection hrow with hrow
    subst hrow
    rw [← hj', hj₁]
    exact .single (.claim hmem hguard (hkey tick) rfl (by simp [Tick.Leased]))

theorem claimNext_writes {claimId runId : String}
    (h : j.claimNext now leaseDuration claimId runId = .ok (claimed, j')) :
    Writes j j' := by
  unfold claimNext at h
  rw [bind_ok] at h
  obtain ⟨tick, -, h⟩ := h
  exact claimLocked_writes h

theorem takeOver_writes {runId : String} {tick' : Tick}
    (h : j.takeOver now runId tick = .ok (tick', j')) : Writes j j' := by
  unfold takeOver at h
  simp only [bind_ok, pure_ok] at h
  obtain ⟨-, -, ⟨row, j₁⟩, hupdate, h⟩ := h
  injection h with _ hj'
  rw [← hj']
  exact (released_writes hupdate).trans (note_writes (by decide) _ _)

theorem claimTick_writes
    (h : j.claimTick now leaseDuration claimId runId tickId = .ok (claimed, j')) : Writes j j' := by
  unfold claimTick at h
  simp only [bind_ok] at h
  obtain ⟨tick, -, ⟨tick', j₁⟩, htaken, -, -, -, -, h⟩ := h
  refine .trans ?_ (claimLocked_writes h)
  unfold takeOverIfHeld at htaken
  split at htaken
  · exact takeOver_writes htaken
  · cases htaken
    exact .refl

-- ==== under the claim

theorem heartbeat_writes {claim' : ClaimedRuntimeTick}
    (h : j.heartbeat now leaseDuration claim = .ok (claim', j')) :
    Writes j j' := by
  unfold heartbeat at h
  simp only [bind_ok, pure_ok] at h
  obtain ⟨⟨row, j₁⟩, hupdate, row', -, claim'', -, h⟩ := h
  injection h with _ hj'
  rw [← hj']
  refine .trans (updateTick_writes ?_ ?_ ?_ hupdate) (note_writes (by decide) _ _)
  · exact fun _ => ⟨rfl, rfl⟩
  · exact fun _ => rfl
  · intro tick hleased
    show (Option.map _ tick.lease).isSome = true ↔ _
    rw [Option.isSome_map]
    exact hleased

theorem completeTick_writes {receipt : RuntimeTickReceipt} {runState : RunState}
    (h : j.completeTick now claim receipt runState = .ok j') :
    Writes j j' := by
  unfold completeTick at h
  simp only [bind_ok, pure_ok] at h
  obtain ⟨-, -, ⟨row, j₁⟩, hupdate, row', -, -, -, j₂, hrun, rfl⟩ := h
  refine .trans (updateTick_writes ?_ ?_ ?_ hupdate) ?_
  · exact fun _ => ⟨rfl, rfl⟩
  · exact fun _ => rfl
  · intro tick _
    simp [Tick.Leased]
  · exact (updateRunState_writes hrun).trans (note_writes (by decide) _ _)

theorem failTick_writes {error : String} {retryable : Bool} {retryAt : Option Instant}
    (h : j.failTick now claim error retryable retryAt = .ok j') :
    Writes j j' := by
  unfold failTick at h
  simp only [bind_ok, pure_ok] at h
  obtain ⟨-, -, ⟨row, j₁⟩, hupdate, row', -, j₂, hrun, rfl⟩ := h
  refine .trans (updateTick_writes ?_ ?_ ?_ hupdate) ?_
  · exact fun _ => ⟨rfl, rfl⟩
  · exact fun _ => rfl
  · intro tick _
    cases retryable with
    | true => simp [Tick.Leased]
    | false => simp [Tick.Leased]
  · exact (updateRunState_writes hrun).trans (note_writes (by decide) _ _)

-- ==== provider attempts

theorem held_some {now : Instant}
    (h : (j.tick? claim.runId claim.tickId).filter (claim.holds now) = some tick) :
    tick ∈ j.ticks ∧ tick.tickId = claim.tickId ∧ claim.holds now tick = true := by
  rw [Option.filter_eq_some_iff] at h
  obtain ⟨-, hmem, hid⟩ := tick?_some h.1
  exact ⟨hmem, hid, h.2⟩

theorem startProviderAttempt_writes {reply : Nat × Nat}
    (h : j.startProviderAttempt now claim = .ok (reply, j')) :
    Writes j j' := by
  unfold startProviderAttempt insertAttempt at h
  simp only [bind_ok, pure_ok, fetchOne_ok, require_ok] at h
  obtain ⟨tick, hheld, j₁, ⟨-, -, -, hfence, rfl⟩, ⟨row, j₂⟩, hupdate, row', -, h⟩ := h
  injection h with _ hj'
  obtain ⟨hmem, hid, hholds⟩ := held_some hheld
  have htoken : claim.fencingToken = tick.fencingToken := by
    simp [ClaimedRuntimeTick.holds, ClaimedRuntimeTick.holdsFence] at hholds
    exact hholds.1.1.2.symm
  rw [← hj']
  have hnumber : ((j.attemptsOf claim.tickId).map (·.attemptNumber)).foldr max 0 + 1
        = ((j.attemptsOf tick.tickId).map (·.attemptNumber)).foldr max 0 + 1 := by
    rw [hid]
  refine .trans ?_ (.trans (pointer_writes ?_ hupdate) (note_writes (by decide) _ _))
  · exact .single (.start hmem rfl htoken hnumber hfence rfl)
  · exact fun _ => ⟨rfl, rfl, rfl, rfl, rfl⟩

theorem completeProviderAttempt_writes {attemptId : Nat} {outcome : ProviderAttemptOutcome}
    (h : j.completeProviderAttempt now claim attemptId outcome = .ok j') :
    Writes j j' := by
  unfold completeProviderAttempt at h
  simp only [bind_ok, pure_ok] at h
  obtain ⟨-, -, -, -, -, -, rfl⟩ := h
  refine .trans (.single (.settle ?_ ?_)) (note_writes (by decide) _ _)
  · intro attempt
    split
    · exact ⟨rfl, rfl, rfl, rfl⟩
    · exact ⟨rfl, rfl, rfl, rfl⟩
  · intro attempt hended
    refine if_neg fun hmatch => ?_
    simp [completes, hended] at hmatch

-- ==== evidence

theorem advanceCurrent_writes {fencingToken : Nat} {advanced : Bool}
    (h : j.advanceCurrent fencingToken evidence = .ok (advanced, j')) :
    Writes j j' := by
  have haside : ∀ current, Writes j { j with current := current } :=
    fun current => .single (@Write.aside j j.status j.version current j.decisions 0)
  unfold advanceCurrent at h
  split at h
  · cases h
    exact haside _
  · split at h
    · cases h
      exact .refl
    · simp only [bind_ok, pure_ok] at h
      obtain ⟨-, -, h⟩ := h
      cases h
      exact haside _

theorem commitEvidence_writes {attempt : ProviderAttemptSnapshot}
    {reply : Bool × Nat} (h : j.commitEvidence now claim attempt evidence = .ok (reply, j')) :
    Writes j j' := by
  unfold commitEvidence at h
  simp only [bind_ok, pure_ok, fetchOne_ok, require_ok] at h
  obtain ⟨-, hmatches, -, -, row, hrow, -, hmanifest, j₁, hinsert, -, -,
    ⟨advanced, j₂⟩, hadvance, ⟨row', j₃⟩, hupdate, row'', -, h⟩ := h
  injection h with _ hj'
  have hcommit : Writes j j₁ := by
    unfold insertEvidence at hinsert
    split at hinsert
    · cases hinsert
      exact .refl
    · next hnone =>
        simp only [bind_ok, pure_ok] at hinsert
        obtain ⟨-, -, rfl⟩ := hinsert
        have hfound := find?_some hrow
        simp only [Bool.and_eq_true, decide_eq_true_eq] at hfound
        refine .single (.commit (mem_of_find?_eq_some hrow) ?_ hfound.2 hmanifest ?_)
        · rw [hfound.1.1, hmatches.2.1]
        · intro other hother heq
          exact hnone (any_eq_true.mpr ⟨other, hother, by simpa using heq⟩)
  refine (hcommit.trans (advanceCurrent_writes hadvance)).trans ?_
  refine .trans (pointer_writes ?_ hupdate) ?_
  · exact fun _ => ⟨rfl, rfl, rfl, rfl, rfl⟩
  rw [← hj']
  split
  · exact (note_writes (by decide) _ _).trans (note_writes (by decide) _ _)
  · exact note_writes (by decide) _ _

-- ==== change decisions

variable {decision : ChangeDecision} {version : Nat}

theorem insertDecision_writes (h : j.insertDecision decision = .ok j') : Writes j j' := by
  unfold insertDecision at h
  split at h
  · cases h
    exact .refl
  · simp only [bind_ok, pure_ok] at h
    obtain ⟨-, -, rfl⟩ := h
    exact .single (@Write.aside j j.status j.version j.current (j.decisions ++ [decision]) 0)

theorem recordDecision_writes (h : j.recordDecision now claim decision = .ok (version, j')) :
    Writes j j' := by
  unfold recordDecision at h
  simp only [bind_ok, pure_ok] at h
  obtain ⟨-, -, j₁, hinsert, -, -, ⟨row, j₂⟩, hupdate, row', -, h⟩ := h
  injection h with _ hj'
  rw [← hj']
  refine (insertDecision_writes hinsert).trans ?_
  refine .trans (pointer_writes ?_ hupdate) (note_writes (by decide) _ _)
  exact fun _ => ⟨rfl, rfl, rfl, rfl, rfl⟩

theorem recordChangeDecision_writes
    (h : j.recordChangeDecision now claim decision = .ok (version, j')) :
    Writes j j' := by
  unfold recordChangeDecision at h
  simp only [bind_ok] at h
  obtain ⟨-, -, active, -, h⟩ := h
  split at h
  · simp only [bind_ok, pure_ok] at h
    obtain ⟨-, -, h⟩ := h
    cases h
    exact .refl
  · simp only [bind_ok] at h
    obtain ⟨-, -, h⟩ := h
    exact recordDecision_writes h

-- ==== resuming

theorem recover_writes (h : recover now j tick = .ok j') : Writes j j' := by
  unfold recover at h
  simp only [bind_ok, pure_ok] at h
  obtain ⟨⟨row, j₁⟩, hupdate, rfl⟩ := h
  refine .trans (.single (.settle ?_ ?_)) ((released_writes hupdate).trans
    (note_writes (by decide) _ _))
  · intro attempt
    split
    · exact ⟨rfl, rfl, rfl, rfl⟩
    · exact ⟨rfl, rfl, rfl, rfl⟩
  · intro attempt hended
    exact if_neg fun hmatch => hended hmatch.2.2

theorem recoverAll_writes {rows : List Tick}
    (h : rows.foldlM (recover now) j = .ok j') : Writes j j' := by
  induction rows generalizing j with
  | nil =>
    cases h
    exact .refl
  | cons tick rows ih =>
    rw [foldlM_cons, bind_ok] at h
    obtain ⟨j₁, hrecover, hrest⟩ := h
    exact (recover_writes hrecover).trans (ih hrest)

theorem resume_writes {runId : String} (h : j.resume now runId = .ok j') :
    Writes j j' := by
  unfold resume at h
  simp only [bind_ok] at h
  obtain ⟨-, -, j₁, hrows, h⟩ := h
  refine (recoverAll_writes hrows).trans ?_
  split at h
  · cases h
    exact .refl
  · simp only [bind_ok, pure_ok] at h
    obtain ⟨j₂, hrun, rfl⟩ := h
    exact (updateRunState_writes hrun).trans (note_writes (by decide) _ _)

end Journal

open Journal

/-- Whatever an operation does is a chain of writes. -/
theorem Operation.perform_writes {now : Instant} {j j' : Journal}
    {operation : Operation} (h : operation.perform now j = .ok j') :
    Writes j j' := by
  have hsnd : ∀ {α : Type} {x : Except Error (α × Journal)},
      (·.2) <$> x = .ok j' → ∃ a, x = .ok (a, j') := by
    intro α x hx
    cases x with
    | error e => cases hx
    | ok r =>
      cases hx
      exact ⟨r.1, rfl⟩
  cases operation with
  | admitTick command sessionPhase => exact admitTick_writes h
  | claimNext runId claimId leaseDuration =>
    obtain ⟨claimed, h⟩ := hsnd h
    exact claimNext_writes h
  | claimTick runId tickId claimId leaseDuration =>
    obtain ⟨claimed, h⟩ := hsnd h
    exact claimTick_writes h
  | heartbeat claim leaseDuration =>
    obtain ⟨claim', h⟩ := hsnd h
    exact heartbeat_writes h
  | completeTick claim receipt runState => exact completeTick_writes h
  | failTick claim error retryable retryAt => exact failTick_writes h
  | startProviderAttempt claim =>
    obtain ⟨reply, h⟩ := hsnd h
    exact startProviderAttempt_writes h
  | completeProviderAttempt claim attemptId outcome => exact completeProviderAttempt_writes h
  | commitEvidence claim attempt evidence =>
    obtain ⟨reply, h⟩ := hsnd h
    exact commitEvidence_writes h
  | recordChangeDecision claim decision =>
    obtain ⟨version, h⟩ := hsnd h
    exact recordChangeDecision_writes h
  | resume runId => exact resume_writes h

end MarketRegimeAlpha.Continuous
