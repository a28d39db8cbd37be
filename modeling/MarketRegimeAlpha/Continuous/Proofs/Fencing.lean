/-
The fence of a tick, over every run.

Any workers may perform any operations in any order, under any claims
they hold or make up. In every state they reach the sequences, tokens and
attempt numbers are right (`Sound`, from `Starts` by one induction), and
from every such state on each tick row only grows.

A claim that is not current is refused (`refused_or_replayed`): from an
operation that returns, the row that carries the claim is read off. The
one operation that returns without it is a decision recorded again, which
changes nothing.
-/
import MarketRegimeAlpha.Continuous.Proofs.Operations
import MarketRegimeAlpha.Lib.Reach

namespace MarketRegimeAlpha.Continuous

open Lib Journal List

variable {s : System} {j j' : Journal} {now : Instant} {claim : ClaimedRuntimeTick}

-- ==== one event

theorem step_sound_grows (event : Event) (hs : Sound s.journal) :
    Sound (step event s).journal ∧ Grows s.journal (step event s).journal := by
  cases event with
  | elapse seconds => exact ⟨hs, Grows.refl _⟩
  | draw ids =>
    refine Writes.sound_grows (.single ?_) hs
    exact .aside
  | perform operation =>
    unfold step
    dsimp only
    split
    · next hperform => exact Writes.sound_grows (Operation.perform_writes hperform) hs
    · exact ⟨hs, Grows.refl _⟩

theorem sound_of_starts (h : Starts s) : Sound s.journal := by
  obtain ⟨runId, request, provider, research, ids, hcreated⟩ := h
  rw [hcreated]
  constructor <;> simp [created, attemptsOf, claims, RuntimeEvent.isClaimOf]

theorem sound_of_reach (h : Reach Starts step (fun _ _ => True) s) :
    Sound s.journal := by
  refine h.inv (fun _ => sound_of_starts) ?_
  intro s event hs _
  exact (step_sound_grows event hs).1

variable (events : List Event)

theorem grows_run (hs : Sound s.journal) : Grows s.journal (run step s events).journal := by
  induction events generalizing s with
  | nil => exact Grows.refl _
  | cons event events ih =>
    have hstep := step_sound_grows event hs
    exact hstep.2.trans (ih hstep.1)

-- ==== the fence

/-- The claim is the current one of its tick: id, token and version are
those of the row, and the lease has not run out. -/
def Current (s : System) (claim : ClaimedRuntimeTick) : Prop :=
  ∃ tick ∈ s.journal.ticks, claim.runId = s.journal.runId
    ∧ tick.tickId = claim.tickId ∧ claim.holds s.now tick = true

/-- The operation records a decision its tick already has, from a claim
that has not seen the last change of the tick. -/
def Replays (s : System) (operation : Operation) : Prop :=
  ∃ claim decision, operation = .recordChangeDecision claim decision
    ∧ decision.runId = claim.runId ∧ decision.tickId = claim.tickId
    ∧ ∃ tick ∈ s.journal.ticks, claim.runId = s.journal.runId
      ∧ tick.tickId = claim.tickId ∧ claim.holdsFence s.now tick = true
      ∧ tick.changeDecisionId = some decision.decisionId
      ∧ tick.version = claim.tickVersion + 1

variable {tick : Tick} {operation : Operation}

theorem current_of_held (h : (s.journal.tick? claim.runId claim.tickId).filter
      (claim.holds s.now) = some tick) : Current s claim := by
  rw [Option.filter_eq_some_iff] at h
  obtain ⟨hrun, hmem, hid⟩ := tick?_some h.1
  exact ⟨tick, hmem, hrun, hid, h.2⟩

theorem current_of_update {set : Tick → Tick} {row : Tick}
    (h : s.journal.updateTick claim.runId claim.tickId (claim.holds s.now) set
      = .ok (some row, j')) : Current s claim := by
  unfold updateTick at h
  split at h
  · cases h
  · next tick hfound =>
      obtain ⟨hrun, hmem, hid⟩ := tick?_some hfound
      split at h
      · next hholds => exact ⟨tick, hmem, hrun, hid, hholds⟩
      · cases h

/-- A decision that is recorded is so under a current claim, or it was
there. -/
theorem current_of_recordChangeDecision {decision : ChangeDecision}
    {version : Nat} (h : s.journal.recordChangeDecision s.now claim decision = .ok (version, j')) :
    Current s claim ∨ (Replays s (.recordChangeDecision claim decision) ∧ j' = s.journal) := by
  unfold recordChangeDecision at h
  simp only [bind_ok, require_ok, fetchOne_ok] at h
  obtain ⟨-, hbelongs, tick, hactive, h⟩ := h
  rw [Option.filter_eq_some_iff] at hactive
  obtain ⟨hrun, hmem, hid⟩ := tick?_some hactive.1
  have hcurrent : tick.version = claim.tickVersion → Current s claim := by
    intro hversion
    refine ⟨tick, hmem, hrun, hid, ?_⟩
    rw [ClaimedRuntimeTick.holds, hactive.2, hversion]
    simp
  split at h
  · next decisionId hdecided =>
      simp only [bind_ok, require_ok, pure_ok, Prod.mk.injEq] at h
      obtain ⟨-, ⟨rfl, hversion⟩, -, rfl⟩ := h
      rcases hversion with hversion | hversion
      · exact .inl (hcurrent hversion)
      · exact .inr ⟨⟨claim, decision, rfl, hbelongs.1, hbelongs.2, tick, hmem,
          hrun, hid, hactive.2, hdecided, hversion⟩, rfl⟩
  · simp only [bind_ok, require_ok] at h
    obtain ⟨-, hversion, -⟩ := h
    exact .inl (hcurrent hversion)

/-- An operation on a claimed tick that returns has found the claim
current, or has recorded a decision again and changed nothing. -/
theorem current_of_perform (hclaim : operation.claim? = some claim)
    (h : operation.perform s.now s.journal = .ok j') :
    Current s claim ∨ (Replays s operation ∧ j' = s.journal) := by
  have hsnd : ∀ {α : Type} {x : Except Error (α × Journal)},
      (·.2) <$> x = .ok j' → ∃ a, x = .ok (a, j') := by
    intro α x hx
    cases x with
    | error e => cases hx
    | ok r =>
      cases hx
      exact ⟨r.1, rfl⟩
  cases operation with
  | admitTick command sessionPhase => cases hclaim
  | claimNext runId claimId leaseDuration => cases hclaim
  | claimTick runId tickId claimId leaseDuration => cases hclaim
  | heartbeat claim' leaseDuration =>
    cases hclaim
    obtain ⟨claim', h⟩ := hsnd h
    unfold heartbeat at h
    simp only [bind_ok, fetchOne_ok] at h
    obtain ⟨⟨row, j₁⟩, hupdate, row', rfl, -⟩ := h
    exact .inl (current_of_update hupdate)
  | completeTick claim' receipt runState =>
    cases hclaim
    change s.journal.completeTick s.now claim receipt runState = .ok j' at h
    unfold completeTick at h
    simp only [bind_ok, fetchOne_ok] at h
    obtain ⟨-, -, ⟨row, j₁⟩, hupdate, row', rfl, -⟩ := h
    exact .inl (current_of_update hupdate)
  | failTick claim' error retryable retryAt =>
    cases hclaim
    change s.journal.failTick s.now claim error retryable retryAt = .ok j' at h
    unfold failTick at h
    simp only [bind_ok, fetchOne_ok] at h
    obtain ⟨-, -, ⟨row, j₁⟩, hupdate, row', rfl, -⟩ := h
    exact .inl (current_of_update hupdate)
  | startProviderAttempt claim' =>
    cases hclaim
    obtain ⟨reply, h⟩ := hsnd h
    unfold startProviderAttempt at h
    simp only [bind_ok, fetchOne_ok] at h
    obtain ⟨tick, hheld, -⟩ := h
    exact .inl (current_of_held hheld)
  | completeProviderAttempt claim' attemptId outcome =>
    cases hclaim
    change s.journal.completeProviderAttempt s.now claim attemptId outcome = .ok j' at h
    unfold completeProviderAttempt at h
    simp only [bind_ok, fetchOne_ok] at h
    obtain ⟨-, -, tick, hheld, -⟩ := h
    exact .inl (current_of_held hheld)
  | commitEvidence claim' attempt evidence =>
    cases hclaim
    obtain ⟨reply, h⟩ := hsnd h
    unfold commitEvidence at h
    simp only [bind_ok, fetchOne_ok] at h
    obtain ⟨-, -, tick, hheld, -⟩ := h
    exact .inl (current_of_held hheld)
  | recordChangeDecision claim' decision =>
    cases hclaim
    obtain ⟨version, h⟩ := hsnd h
    exact current_of_recordChangeDecision h
  | resume runId => cases hclaim

/-- A claim that is not current changes nothing: the operation raises, or
records again a decision the tick has. -/
theorem refused_or_replayed (hclaim : operation.claim? = some claim) (hstale : ¬ Current s claim) :
    step (.perform operation) s = s ∧ ((∃ e, operation.perform s.now s.journal = .error e)
        ∨ Replays s operation) := by
  unfold step
  dsimp only
  cases hperform : operation.perform s.now s.journal with
  | error e => exact ⟨rfl, .inl ⟨e, rfl⟩⟩
  | ok j' =>
    rcases current_of_perform hclaim hperform with hcurrent | ⟨hreplays, rfl⟩
    · exact absurd hcurrent hstale
    · exact ⟨rfl, .inr hreplays⟩

-- ==== what resume settles

/-- No attempt of the tick's current fence is under way. -/
def Settled (tick : Tick) (j : Journal) : Prop :=
  ∀ attempt ∈ j.attempts, attempt.tickId = tick.tickId →
    attempt.fencingToken = tick.fencingToken → attempt.status ≠ .started

/-- Recovering a tick changes the attempts as `expireAttempts` does. -/
theorem recover_attempts (h : recover now j tick = .ok j') :
    j'.attempts = (j.expireAttempts now tick).attempts := by
  unfold recover at h
  simp only [bind_ok, pure_ok] at h
  obtain ⟨⟨row, j₁⟩, hupdate, rfl⟩ := h
  have hkey : ∀ tick : Tick, tick.Same tick.released := fun _ => ⟨rfl, rfl⟩
  rcases updateTick_ok hkey hupdate with ⟨-, hj₁⟩ | ⟨row', -, -, -, -, -, hj₁⟩
  · rw [hj₁]
    rfl
  · rw [hj₁]
    rfl

theorem recover_settles (h : recover now j tick = .ok j') :
    Settled tick j' := by
  intro attempt hattempt htick htoken
  rw [recover_attempts h] at hattempt
  obtain ⟨old, -, rfl⟩ := mem_map.mp hattempt
  split
  · simp
  · next hnot =>
      rw [if_neg hnot] at htick htoken
      exact fun hstarted => hnot ⟨htick, htoken, hstarted⟩

theorem Settled.recover {tick other : Tick} (hsettled : Settled tick j)
    (h : recover now j other = .ok j') : Settled tick j' := by
  intro attempt hattempt htick htoken
  rw [recover_attempts h] at hattempt
  obtain ⟨old, hold, rfl⟩ := mem_map.mp hattempt
  split
  · simp
  · next hnot =>
      rw [if_neg hnot] at htick htoken
      exact hsettled old hold htick htoken

theorem recoverAll_settles {rows : List Tick} (h : rows.foldlM (recover now) j = .ok j') :
    ∀ tick, (tick ∈ rows ∨ Settled tick j) → Settled tick j' := by
  induction rows generalizing j with
  | nil =>
    cases h
    intro tick htick
    rcases htick with htick | htick
    · cases htick
    · exact htick
  | cons row rows ih =>
    rw [foldlM_cons, bind_ok] at h
    obtain ⟨j₁, hrecover, hrest⟩ := h
    intro tick htick
    apply ih hrest tick
    rcases htick with htick | htick
    · rcases mem_cons.mp htick with rfl | htick
      · exact .inr (recover_settles hrecover)
      · exact .inl htick
    · exact .inr (htick.recover hrecover)

/-- `resume` settles the attempts of every fence it takes away. -/
theorem resume_settles {runId : String} (h : j.resume now runId = .ok j')
    (hmem : tick ∈ j.ticks) (hexpired : tick.isExpired now) :
    Settled tick j' := by
  unfold resume at h
  simp only [bind_ok] at h
  obtain ⟨-, -, j₁, hrows, h⟩ := h
  have hrow : tick ∈ (sortBy (·.tickSequence) j.ticks).filter (Tick.isExpired now) :=
    mem_filter.mpr ⟨(sortBy_perm _ _).mem_iff.mpr hmem, hexpired⟩
  have hsettled := recoverAll_settles hrows tick (.inl hrow)
  split at h
  · cases h
    exact hsettled
  · unfold updateRunState updateRun at h
    simp only [bind_ok, pure_ok] at h
    obtain ⟨-, ⟨-, ⟨-, -, rfl⟩, rfl⟩, rfl⟩ := h
    exact hsettled

-- ==== every run

/-- What holds of a state in which any workers may go on in any way. -/
structure Fenced (s : System) : Prop where
  /-- The ticks take the places `1 .. current_tick_sequence`. -/
  sequences : s.journal.ticks.map (·.tickSequence) = List.range' 1 s.journal.currentTickSequence
  /-- A token counts the claims of its tick. -/
  token_counts : ∀ tick ∈ s.journal.ticks, tick.fencingToken = s.journal.claims tick.tickId
  /-- The attempts of a tick are numbered `1 .. n`. -/
  numbered : ∀ tickId, (s.journal.attemptsOf tickId).map (·.attemptNumber)
    = List.range' 1 (s.journal.attemptsOf tickId).length
  /-- An attempt has at most one evidence commit. -/
  one_commit : ∀ attemptId, (s.journal.evidence.filter (·.attemptId = attemptId)).length ≤ 1
  /-- An attempt belongs to a tick, under a token that tick has had, and no
  two attempts of a tick share a token. -/
  attempt_of : ∀ attempt ∈ s.journal.attempts, ∃ tick ∈ s.journal.ticks,
    tick.tickId = attempt.tickId ∧ attempt.fencingToken ≤ tick.fencingToken
  one_per_fence : ∀ tickId, ((s.journal.attemptsOf tickId).map (·.fencingToken)).Nodup
  /-- `resume` leaves no attempt under way of a fence it takes away. -/
  resume_settles : ∀ runId j', s.journal.resume s.now runId = .ok j' →
    ∀ tick ∈ s.journal.ticks, tick.isExpired s.now → Settled tick j'
  /-- Whatever follows, the version of a tick grows with every change of
  it, and a completed or failed tick never changes. -/
  grows : ∀ events, ∀ tick ∈ s.journal.ticks, ∃ tick' ∈ (run step s events).journal.ticks,
      tick'.tickId = tick.tickId ∧ (tick' = tick ∨ tick.version < tick'.version)
        ∧ (tick.status = .completed ∨ tick.status = .failed → tick' = tick)
  /-- An operation under a claim that is not current changes nothing: it
  raises, unless it records again the decision its tick has. -/
  refused : ∀ operation claim, operation.claim? = some claim →
    ¬ Current s claim → step (.perform operation) s = s
      ∧ ((∃ e, operation.perform s.now s.journal = .error e) ∨ Replays s operation)

/-- The fence holds in every state that any workers reach in any order of
operations. -/
theorem ticks_fenced (h : Reach Starts step (fun _ _ => True) s) :
    Fenced s := by
  have hs := sound_of_reach h
  constructor
  case sequences => exact hs.sequences
  case token_counts => exact hs.token_eq
  case numbered => exact hs.numbered
  case one_commit =>
    intro attemptId
    have hcount := nodup_iff_count_le_one.mp hs.one_commit attemptId
    rw [List.count, countP_map, countP_eq_length_filter] at hcount
    exact hcount
  case attempt_of => exact hs.attempt_of
  case one_per_fence => exact hs.one_per_fence
  case resume_settles =>
    intro runId j' hresume tick hmem hexpired
    exact Continuous.resume_settles hresume hmem hexpired
  case grows =>
    intro events tick hmem
    obtain ⟨tick', hmem', hsame, hgrows⟩ := grows_run events hs tick hmem
    refine ⟨tick', hmem', hsame.tickId_eq, ?_, ?_⟩
    · rcases hgrows with heq | ⟨-, hversion, -⟩
      · exact .inl heq
      · exact .inr hversion
    · intro hended
      rcases hgrows with heq | ⟨hopen, -⟩
      · exact heq
      · rcases hended with hended | hended
        · rw [hended] at hopen
          cases hopen
        · rw [hended] at hopen
          cases hopen
  case refused =>
    intro operation claim hclaim hstale
    exact refused_or_replayed hclaim hstale

-- ==== two short runs

/-- A run with nothing in it, at time `0`. -/
def freshSystem : System := ⟨0, .created "run" "scope" "provider" "research" 0 0⟩

def sampleCommand : RuntimeTickCommand :=
  ⟨"tick", "hash", "key", "run", "scope", "provider", "research"⟩

def sampleClaim (version : Nat) (hversion : 1 ≤ version) : ClaimedRuntimeTick where
  runId := "run"
  tickId := "tick"
  tickSequence := 1
  claimId := "first"
  fencingToken := 1
  tickVersion := version
  leaseAcquiredAt := 0
  leaseExpiresAt := 30
  heartbeatAt := 0
  tickSequence_pos := le_rfl
  fencingToken_pos := le_rfl
  tickVersion_pos := hversion
  acquired_before_expiry := by decide
  heartbeat_inside := by decide

/-- The tick is admitted and claimed, and its provider attempt started. -/
def startedEvents : List Event :=
  [.perform (.admitTick sampleCommand .morningSession),
    .perform (.claimTick "run" "tick" "first" 30),
    .perform (.startProviderAttempt (sampleClaim 2 (by decide)))]

/-- The lease runs out and another worker claims the tick. -/
def takenOver : System :=
  run step freshSystem (startedEvents
    ++ [.elapse 30, .perform (.claimTick "run" "tick" "second" 30)])

theorem reach_sample : Reach Starts step (fun _ _ => True) (run step freshSystem events) :=
  (Reach.start ⟨"run", "scope", "provider", "research", 0, rfl⟩).run _
    (Along.of_forall (fun _ _ => trivial) _ _)

/-- The fence at the tick taken over: its token counts two claims, and the
first worker's claim is refused. -/
theorem ticks_fenced_sample : takenOver.journal.ticks.map (·.fencingToken) = [2]
      ∧ takenOver.journal.claims "tick" = 2
      ∧ step (.perform (.heartbeat (sampleClaim 3 (by decide)) 30)) takenOver = takenOver := by
  have hfenced : Fenced takenOver := ticks_fenced (reach_sample _)
  have hstale : ¬ Current takenOver (sampleClaim 3 (by decide)) := by
    unfold Current
    decide
  exact ⟨by decide, by decide, (hfenced.refused _ _ rfl hstale).1⟩

def sampleManifest : SourceManifest := ⟨"manifest", "manifest-hash"⟩

def sampleOutcome : ProviderAttemptOutcome where
  status := .succeeded
  completedAt := 0
  sourceManifest := some sampleManifest
  status_worker := by decide
  manifest_iff := by decide

def sampleEvidence : EvidenceCommit :=
  ⟨"evidence", "evidence-hash", "run", "tick", 1, "scope", sampleManifest, "material"⟩

def sampleDecision : ChangeDecision where
  decisionId := "decision"
  decisionHash := "decision-hash"
  runId := "run"
  tickId := "tick"
  providerAttemptId := 1
  evidenceCommitId := "evidence"
  evidenceCommitHash := "evidence-hash"
  previousEvidence := none
  decisionType := .initialEvidence
  currentMaterialIdentityHash := "material"

/-- The attempt succeeds, its evidence is committed and the tick
decided. -/
def decided : System :=
  run step freshSystem (startedEvents
    ++ [.perform (.completeProviderAttempt (sampleClaim 3 (by decide)) 1 sampleOutcome),
      .perform (.commitEvidence (sampleClaim 3 (by decide))
        ⟨1, "run", "tick", .succeeded, some sampleManifest⟩ sampleEvidence),
      .perform (.recordChangeDecision (sampleClaim 4 (by decide)) sampleDecision)])

/-- Two things the fence does not do. An attempt of the first fence is
still under way when the tick is in progress under the second, and a
decision recorded again by a claim one version behind returns. -/
theorem takeover_and_replay : Reach Starts step (fun _ _ => True) takenOver
      ∧ (takenOver.journal.attempts.map fun a => (a.fencingToken, a.status)) = [(1, .started)]
      ∧ (takenOver.journal.ticks.map fun t => (t.fencingToken, t.status)) = [(2, .inProgress)]
      ∧ Reach Starts step (fun _ _ => True) decided
      ∧ ¬ Current decided (sampleClaim 4 (by decide))
      ∧ decided.journal.recordChangeDecision decided.now (sampleClaim 4 (by decide)) sampleDecision
        = .ok (5, decided.journal) := by
  refine ⟨reach_sample _, by decide, by decide, reach_sample _, ?_, by decide⟩
  unfold Current
  decide

end MarketRegimeAlpha.Continuous
