/-
Which ticks are decided and what the current evidence points at, over
every run.

Most operations neither commit evidence nor decide: what they leave alone
is `Keeps`, one lemma an operation. The two others are read off where
they return (`commitEvidence_ok`, `recordDecision_ok`), and together they
give `Traced` of every reached state.
-/
import MarketRegimeAlpha.Continuous.ChangeDetection
import MarketRegimeAlpha.Continuous.Proofs.Fencing

namespace MarketRegimeAlpha.Continuous

open Lib Journal List

variable {j j' : Journal} {now leaseDuration : Instant} {claim : ClaimedRuntimeTick}
  {tick tick' : Tick} {runId tickId : String}

def Decided (j : Journal) (tickId : String) : Prop :=
  ∃ tick ∈ j.ticks, tick.tickId = tickId ∧ tick.changeDecisionId.isSome

/-- What an operation that neither commits evidence nor decides leaves
alone. -/
structure Keeps (j j' : Journal) : Prop where
  runId_eq : j'.runId = j.runId
  evidence_eq : j'.evidence = j.evidence
  current_eq : j'.current = j.current
  decisions_eq : j'.decisions = j.decisions
  attempts : ∀ attempt ∈ j.attempts, ∃ attempt' ∈ j'.attempts,
    attempt'.attemptId = attempt.attemptId ∧ attempt'.tickId = attempt.tickId
  decided : ∀ tickId, Decided j' tickId ↔ Decided j tickId

namespace Keeps

theorem of_eq (hrun : j'.runId = j.runId) (hevidence : j'.evidence = j.evidence)
    (hcurrent : j'.current = j.current) (hdecisions : j'.decisions = j.decisions)
    (hattempts : j'.attempts = j.attempts) (hticks : j'.ticks = j.ticks) : Keeps j j' := by
  refine ⟨hrun, hevidence, hcurrent, hdecisions, ?_, ?_⟩
  · intro attempt hattempt
    exact ⟨attempt, hattempts ▸ hattempt, rfl, rfl⟩
  · intro tickId
    rw [Decided, Decided, hticks]

theorem refl (j : Journal) : Keeps j j := of_eq rfl rfl rfl rfl rfl rfl

theorem trans {a b c : Journal} (h : Keeps a b) (h' : Keeps b c) : Keeps a c where
  runId_eq := h'.runId_eq.trans h.runId_eq
  evidence_eq := h'.evidence_eq.trans h.evidence_eq
  current_eq := h'.current_eq.trans h.current_eq
  decisions_eq := h'.decisions_eq.trans h.decisions_eq
  attempts := by
    intro attempt hattempt
    obtain ⟨attempt', hattempt', hid, htick⟩ := h.attempts attempt hattempt
    obtain ⟨attempt'', hattempt'', hid', htick'⟩ := h'.attempts attempt' hattempt'
    exact ⟨attempt'', hattempt'', hid'.trans hid, htick'.trans htick⟩
  decided tickId := (h'.decided tickId).trans (h.decided tickId)

theorem settle {f : ProviderAttempt → ProviderAttempt}
    (hf : ∀ attempt, (f attempt).attemptId = attempt.attemptId
      ∧ (f attempt).tickId = attempt.tickId) :
    Keeps j { j with attempts := j.attempts.map f } where
  runId_eq := rfl
  evidence_eq := rfl
  current_eq := rfl
  decisions_eq := rfl
  attempts attempt hattempt := ⟨f attempt, mem_map_of_mem hattempt, hf attempt⟩
  decided _ := Iff.rfl

end Keeps

theorem decided_setTick (hmem : tick ∈ j.ticks) (hid : tick'.tickId = tick.tickId) :
    Decided { j with ticks := setTick tick' j.ticks } tickId ↔
      (tickId = tick.tickId ∧ tick'.changeDecisionId.isSome)
        ∨ (tickId ≠ tick.tickId ∧ Decided j tickId) := by
  constructor
  · rintro ⟨row, hrow, rfl, hsome⟩
    rcases mem_setTick.mp hrow with ⟨rfl, -⟩ | ⟨hrow, hne⟩
    · exact .inl ⟨hid, hsome⟩
    · exact .inr ⟨hid ▸ hne, row, hrow, rfl, hsome⟩
  · rintro (⟨rfl, hsome⟩ | ⟨hne, row, hrow, rfl, hsome⟩)
    · exact ⟨tick', mem_setTick.mpr (.inl ⟨rfl, tick, hmem, hid.symm⟩), hid, hsome⟩
    · exact ⟨row, mem_setTick.mpr (.inr ⟨hrow, hid ▸ hne⟩), rfl, hsome⟩

theorem decided_iff (hnodup : (j.ticks.map (·.tickId)).Nodup) (hmem : tick ∈ j.ticks) :
    Decided j tick.tickId ↔ tick.changeDecisionId.isSome := by
  constructor
  · rintro ⟨row, hrow, hid, hsome⟩
    rwa [← inj_on_of_nodup_map hnodup hrow hmem hid]
  · exact fun hsome => ⟨tick, hmem, rfl, hsome⟩

-- ==== one lemma an operation

theorem updateTick_keeps {matching : Tick → Bool} {set : Tick → Tick} {row : Option Tick}
    (h : j.updateTick runId tickId matching set = .ok (row, j'))
    (hnodup : (j.ticks.map (·.tickId)).Nodup)
    (hset : ∀ tick : Tick, tick.Same (set tick)
      ∧ (set tick).changeDecisionId = tick.changeDecisionId) : Keeps j j' := by
  rcases updateTick_ok (fun tick => (hset tick).1) h with
    ⟨-, rfl⟩ | ⟨tick, hmem, -, -, -, -, rfl⟩
  · exact .refl _
  · refine { Keeps.refl j with decided := fun tickId => ?_ }
    rw [decided_setTick hmem (hset tick).1.tickId_eq, (hset tick).2, ← decided_iff hnodup hmem]
    by_cases heq : tickId = tick.tickId
    · simp [heq]
    · simp [heq]

theorem updateRunState_keeps {status : RunState} (h : j.updateRunState status now = .ok j') :
    Keeps j j' := by
  unfold updateRunState updateRun at h
  simp only [bind_ok, pure_ok] at h
  obtain ⟨-, ⟨-, -, rfl⟩, rfl⟩ := h
  exact .of_eq rfl rfl rfl rfl rfl rfl

theorem insertEvent_keeps {eventType : EventType} {noted : Option String} {token : Option Nat} :
    Keeps j (j.insertEvent noted eventType now token) :=
  .of_eq rfl rfl rfl rfl rfl rfl

theorem admitTick_keeps {command : RuntimeTickCommand} {sessionPhase : SessionPhase}
    (h : j.admitTick now command sessionPhase = .ok j') : Keeps j j' := by
  unfold admitTick at h
  split at h
  · simp only [bind_ok, pure_ok] at h
    obtain ⟨-, -, rfl⟩ := h
    exact .refl _
  · unfold updateRun at h
    simp only [bind_ok, pure_ok] at h
    obtain ⟨-, -, -, -, -, -, -, -, j₁, ⟨-, -, rfl⟩, rfl⟩ := h
    refine { Keeps.refl j with decided := fun tickId => ?_ }
    simp [Decided, insertEvent, or_and_right, exists_or]

theorem claimLocked_keeps {claimed : ClaimedRuntimeTick} {claimId : String}
    {tickSequence version : Nat} (hnodup : (j.ticks.map (·.tickId)).Nodup)
    (h : j.claimLocked now leaseDuration claimId runId tickId tickSequence version
      = .ok (claimed, j')) : Keeps j j' := by
  unfold claimLocked at h
  simp only [bind_ok, pure_ok] at h
  obtain ⟨⟨row, j₁⟩, hupdate, _, -, _, -, h⟩ := h
  injection h with _ hj'
  have hkeeps := updateTick_keeps hupdate hnodup fun _ => ⟨⟨rfl, rfl⟩, rfl⟩
  exact hj' ▸ hkeeps.trans insertEvent_keeps

theorem claimTick_keeps {claimed : ClaimedRuntimeTick} {claimId : String} (hj : Sound j)
    (h : j.claimTick now leaseDuration claimId runId tickId = .ok (claimed, j')) :
    Keeps j j' := by
  unfold claimTick at h
  simp only [bind_ok] at h
  obtain ⟨tick, -, ⟨tick', j₁⟩, htaken, -, -, -, -, h⟩ := h
  unfold takeOverIfHeld at htaken
  split at htaken
  · have hsound := (Writes.sound_grows (takeOver_writes htaken) hj).1
    refine .trans ?_ (claimLocked_keeps hsound.ids_nodup h)
    unfold takeOver at htaken
    simp only [bind_ok, pure_ok] at htaken
    obtain ⟨-, -, ⟨row, j₂⟩, hupdate, htaken⟩ := htaken
    injection htaken with _ hj₁
    have hkeeps := updateTick_keeps hupdate hj.ids_nodup fun _ => ⟨⟨rfl, rfl⟩, rfl⟩
    exact hj₁ ▸ hkeeps.trans insertEvent_keeps
  · cases htaken
    exact claimLocked_keeps hj.ids_nodup h

theorem recoverAll_keeps {rows : List Tick} (hj : Sound j)
    (h : rows.foldlM (recover now) j = .ok j') : Keeps j j' := by
  induction rows generalizing j with
  | nil =>
    cases h
    exact .refl _
  | cons tick rows ih =>
    rw [foldlM_cons, bind_ok] at h
    obtain ⟨j₁, hrecover, hrest⟩ := h
    refine .trans ?_ (ih (Writes.sound_grows (recover_writes hrecover) hj).1 hrest)
    unfold recover at hrecover
    simp only [bind_ok, pure_ok] at hrecover
    obtain ⟨⟨row, j₂⟩, hupdate, rfl⟩ := hrecover
    have hsettle : Keeps j (j.expireAttempts now tick) := by
      refine .settle fun attempt => ?_
      split
      · exact ⟨rfl, rfl⟩
      · exact ⟨rfl, rfl⟩
    have hkeeps := updateTick_keeps hupdate hj.ids_nodup fun _ => ⟨⟨rfl, rfl⟩, rfl⟩
    exact hsettle.trans (hkeeps.trans insertEvent_keeps)

theorem snd_ok {α : Type} {x : Except Error (α × Journal)} (h : (·.2) <$> x = .ok j') :
    ∃ a, x = .ok (a, j') := by
  cases x with
  | error e => cases h
  | ok r =>
    cases h
    exact ⟨r.1, rfl⟩

/-- An operation that neither commits evidence nor decides. -/
def Operation.IsQuiet : Operation → Prop
  | .commitEvidence _ _ _ => False
  | .recordChangeDecision _ _ => False
  | _ => True

theorem Operation.perform_keeps {operation : Operation} (hquiet : operation.IsQuiet)
    (hj : Sound j) (h : operation.perform now j = .ok j') : Keeps j j' := by
  cases operation with
  | admitTick command sessionPhase => exact admitTick_keeps h
  | claimNext runId claimId leaseDuration =>
    obtain ⟨claimed, h⟩ := snd_ok h
    unfold Journal.claimNext at h
    rw [bind_ok] at h
    obtain ⟨tick, -, h⟩ := h
    exact claimLocked_keeps hj.ids_nodup h
  | claimTick runId tickId claimId leaseDuration =>
    obtain ⟨claimed, h⟩ := snd_ok h
    exact claimTick_keeps hj h
  | heartbeat claim leaseDuration =>
    obtain ⟨claimed, h⟩ := snd_ok h
    unfold Journal.heartbeat at h
    simp only [bind_ok, pure_ok] at h
    obtain ⟨⟨row, j₁⟩, hupdate, _, -, _, -, h⟩ := h
    injection h with _ hj'
    have hkeeps := updateTick_keeps hupdate hj.ids_nodup fun _ => ⟨⟨rfl, rfl⟩, rfl⟩
    exact hj' ▸ hkeeps.trans insertEvent_keeps
  | completeTick claim receipt runState =>
    change j.completeTick now claim receipt runState = .ok j' at h
    unfold Journal.completeTick at h
    simp only [bind_ok, pure_ok] at h
    obtain ⟨-, -, ⟨row, j₁⟩, hupdate, _, -, -, -, j₂, hrun, rfl⟩ := h
    have hkeeps := updateTick_keeps hupdate hj.ids_nodup fun _ => ⟨⟨rfl, rfl⟩, rfl⟩
    exact hkeeps.trans ((updateRunState_keeps hrun).trans insertEvent_keeps)
  | failTick claim error retryable retryAt =>
    change j.failTick now claim error retryable retryAt = .ok j' at h
    unfold Journal.failTick at h
    simp only [bind_ok, pure_ok] at h
    obtain ⟨-, -, ⟨row, j₁⟩, hupdate, _, -, j₂, hrun, rfl⟩ := h
    have hkeeps := updateTick_keeps hupdate hj.ids_nodup fun _ => ⟨⟨rfl, rfl⟩, rfl⟩
    exact hkeeps.trans ((updateRunState_keeps hrun).trans insertEvent_keeps)
  | startProviderAttempt claim =>
    obtain ⟨reply, h⟩ := snd_ok h
    unfold Journal.startProviderAttempt insertAttempt at h
    simp only [bind_ok, pure_ok] at h
    obtain ⟨tick, -, j₁, ⟨-, -, -, -, rfl⟩, ⟨row, j₂⟩, hupdate, _, -, h⟩ := h
    injection h with _ hj'
    have hkeeps := updateTick_keeps hupdate hj.ids_nodup fun _ => ⟨⟨rfl, rfl⟩, rfl⟩
    refine hj' ▸ Keeps.trans ?_ (hkeeps.trans insertEvent_keeps)
    refine { Keeps.refl j with attempts := fun attempt hattempt => ?_ }
    exact ⟨attempt, mem_append_left _ hattempt, rfl, rfl⟩
  | completeProviderAttempt claim attemptId outcome =>
    change j.completeProviderAttempt now claim attemptId outcome = .ok j' at h
    unfold Journal.completeProviderAttempt at h
    simp only [bind_ok, pure_ok] at h
    obtain ⟨-, -, -, -, -, -, rfl⟩ := h
    refine Keeps.trans (.settle fun attempt => ?_) insertEvent_keeps
    split
    · exact ⟨rfl, rfl⟩
    · exact ⟨rfl, rfl⟩
  | commitEvidence claim attempt evidence => cases hquiet
  | recordChangeDecision claim decision => cases hquiet
  | resume runId =>
    change j.resume now runId = .ok j' at h
    unfold Journal.resume at h
    simp only [bind_ok] at h
    obtain ⟨-, -, j₁, hrows, h⟩ := h
    refine (recoverAll_keeps hj hrows).trans ?_
    split at h
    · cases h
      exact .refl _
    · simp only [bind_ok, pure_ok] at h
      obtain ⟨j₂, hrun, rfl⟩ := h
      exact (updateRunState_keeps hrun).trans insertEvent_keeps

/-- An event that neither commits evidence nor decides. -/
def Event.IsQuiet : Event → Prop
  | .perform operation => operation.IsQuiet
  | _ => True

theorem step_keeps {s : System} {event : Event} (hquiet : event.IsQuiet) (hs : Sound s.journal) :
    Keeps s.journal (step event s).journal := by
  cases event with
  | elapse seconds => exact .refl _
  | draw ids => exact .of_eq rfl rfl rfl rfl rfl rfl
  | perform operation =>
    unfold step
    dsimp only
    split
    · next hperform => exact Operation.perform_keeps hquiet hs hperform
    · exact .refl _

-- ==== evidence

variable {evidence : EvidenceCommit}

/-- `WHERE evidence_scope`, of the current evidence. -/
def pointer (rows : List CurrentEvidence) (evidenceScope : String) : Option CurrentEvidence :=
  rows.find? (·.evidenceScope = evidenceScope)

/-- After evidence is accepted its scope points at its material: at the
commit it pointed at, if that has the material, else at this one. -/
structure Advances (rows rows' : List CurrentEvidence) (evidence : EvidenceCommit) : Prop where
  current_of : ∀ row ∈ rows', row ∈ rows ∨ row.evidenceCommitId = evidence.evidenceCommitId
  pointer : (∃ row, pointer rows evidence.evidenceScope = some row
      ∧ row.materialIdentityHash = evidence.materialIdentityHash
      ∧ pointer rows' evidence.evidenceScope = some row)
    ∨ (∀ row ∈ pointer rows evidence.evidenceScope,
        row.materialIdentityHash ≠ evidence.materialIdentityHash)
      ∧ ∃ row, pointer rows' evidence.evidenceScope = some row
        ∧ row.evidenceCommitId = evidence.evidenceCommitId
        ∧ row.materialIdentityHash = evidence.materialIdentityHash

section Rows

variable {α : Type} {key : α → String} {rows : List α} {k : String} {current new : α}

theorem find?_concat (h : rows.find? (key · = k) = none) (hnew : key new = k) :
    (rows ++ [new]).find? (key · = k) = some new := by
  rw [find?_append, h]
  simp [hnew]

theorem find?_replace (h : rows.find? (key · = k) = some current) (hnew : key new = k) :
    (rows.map fun row => if key row = k then new else row).find? (key · = k) = some new := by
  induction rows with
  | nil => cases h
  | cons row rows ih =>
    by_cases heq : key row = k
    · simp [heq, hnew]
    · simpa [heq] using ih (by simpa [heq] using h)

end Rows

theorem advanceCurrent_ok {token : Nat} {advanced : Bool}
    (h : j.advanceCurrent token evidence = .ok (advanced, j')) :
    ∃ current, j' = { j with current := current } ∧ Advances j.current current evidence := by
  unfold advanceCurrent at h
  split at h
  · next hnone =>
      cases h
      refine ⟨_, rfl, ?_, .inr ⟨?_, _, find?_concat hnone rfl, rfl, rfl⟩⟩
      · intro row hrow
        rcases mem_append.mp hrow with hrow | hrow
        · exact .inl hrow
        · exact .inr (by rw [mem_singleton.mp hrow])
      · simp [pointer, hnone]
  · next current hcurrent =>
      have hscope : current.evidenceScope = evidence.evidenceScope := by
        simpa using find?_some hcurrent
      split at h
      · next hsame =>
          cases h
          exact ⟨_, rfl, fun _ => .inl, .inl ⟨current, hcurrent, hsame, hcurrent⟩⟩
      · next hdiffers =>
          simp only [bind_ok, pure_ok] at h
          obtain ⟨-, -, h⟩ := h
          cases h
          refine ⟨_, rfl, ?_, .inr ⟨?_, _, find?_replace hcurrent hscope, rfl, rfl⟩⟩
          · intro row hrow
            obtain ⟨old, hold, rfl⟩ := mem_map.mp hrow
            split
            · exact .inr rfl
            · exact .inl hold
          · simp [pointer, hcurrent, hdiffers]

/-- What an evidence commit that returns has found and done. -/
structure Commits (j j' : Journal) (evidence : EvidenceCommit) : Prop where
  run : evidence.runId = j.runId
  tick : ∃ tick ∈ j.ticks, tick.tickId = evidence.tickId
  attempt : ∃ attempt ∈ j.attempts, attempt.attemptId = evidence.attemptId
    ∧ attempt.tickId = evidence.tickId
  keeps : Keeps { j with evidence := j'.evidence, current := j'.current } j'
  advances : Advances j.current j'.current evidence
  evidence : (j'.evidence = j.evidence ∧ ∃ other ∈ j.evidence, other.attemptId = evidence.attemptId
        ∧ other.evidenceCommitId = evidence.evidenceCommitId)
    ∨ j'.evidence = j.evidence ++ [evidence]
      ∧ ∀ other ∈ j.evidence, other.evidenceCommitId ≠ evidence.evidenceCommitId

theorem commitEvidence_ok {attempt : ProviderAttemptSnapshot} {reply : Bool × Nat} (hj : Sound j)
    (h : j.commitEvidence now claim attempt evidence = .ok (reply, j')) :
    Commits j j' evidence := by
  unfold commitEvidence insertEvidence at h
  simp only [bind_ok, pure_ok, fetchOne_ok, require_ok] at h
  obtain ⟨-, hmatches, held, hheld, row, hrow, -, -, j₁, hinsert, -, hdurable,
    ⟨advanced, j₂⟩, hadvance, ⟨row', j₃⟩, hupdate, _, -, h⟩ := h
  injection h with _ hj'
  obtain ⟨-, hattempt, -, -, hevidenceRun, hevidenceTick, -⟩ := hmatches
  rw [Option.filter_eq_some_iff] at hheld
  obtain ⟨hrun, hmem, hid⟩ := tick?_some hheld.1
  have hfound := find?_some hrow
  simp only [Bool.and_eq_true, decide_eq_true_eq] at hfound
  have hinserted : ∃ rows, j₁ = { j with evidence := rows } ∧ (rows = j.evidence
      ∨ rows = j.evidence ++ [evidence]
        ∧ ∀ other ∈ j.evidence, other.evidenceCommitId ≠ evidence.evidenceCommitId) := by
    split at hinsert
    · cases hinsert
      exact ⟨_, rfl, .inl rfl⟩
    · simp only [bind_ok, pure_ok, require_ok] at hinsert
      obtain ⟨-, hfresh, rfl⟩ := hinsert
      exact ⟨_, rfl, .inr ⟨rfl, hfresh⟩⟩
  obtain ⟨rows, rfl, hrows⟩ := hinserted
  obtain ⟨current, rfl, hadvances⟩ := advanceCurrent_ok hadvance
  have hkeeps := updateTick_keeps hupdate hj.ids_nodup fun _ => ⟨⟨rfl, rfl⟩, rfl⟩
  have hkeeps : Keeps { j with evidence := rows, current := current } j' := by
    refine hkeeps.trans ?_
    rw [← hj']
    split
    · exact insertEvent_keeps.trans insertEvent_keeps
    · exact insertEvent_keeps
  have hevidence : j'.evidence = rows := hkeeps.evidence_eq
  have hcurrent : j'.current = current := hkeeps.current_eq
  refine ⟨hevidenceRun.trans hrun, ⟨held, hmem, hid.trans hevidenceTick.symm⟩,
    ⟨row, mem_of_find?_eq_some hrow, hfound.1.1.trans hattempt,
      hfound.1.2.trans hevidenceTick.symm⟩, ?_, hcurrent ▸ hadvances, ?_⟩
  · rw [hevidence, hcurrent]
    exact hkeeps
  · rw [hevidence]
    refine hrows.imp_left fun hsame => ⟨hsame, ?_⟩
    obtain ⟨other, hother, hmatch⟩ := any_eq_true.mp hdurable
    simp only [Bool.and_eq_true, decide_eq_true_eq] at hmatch
    exact ⟨other, hsame ▸ hother, hmatch.1⟩

-- ==== change decisions

variable {decision : ChangeDecision}

structure Records (j j' : Journal) (decision : ChangeDecision) : Prop where
  runId_eq : j'.runId = j.runId
  evidence_eq : j'.evidence = j.evidence
  current_eq : j'.current = j.current
  attempts_eq : j'.attempts = j.attempts
  decided : ∀ tickId, Decided j' tickId ↔ tickId = decision.tickId ∨ Decided j tickId
  decisions : (j'.decisions = j.decisions ++ [decision]
      ∧ ∀ other ∈ j.decisions, other.tickId ≠ decision.tickId)
    ∨ j'.decisions = j.decisions ∧ ∃ other ∈ j.decisions, other.tickId = decision.tickId

theorem recordChangeDecision_ok {version : Nat}
    (h : j.recordChangeDecision now claim decision = .ok (version, j')) :
    j' = j ∨ Records j j' decision := by
  unfold recordChangeDecision at h
  simp only [bind_ok, require_ok] at h
  obtain ⟨-, hbelongs, active, -, h⟩ := h
  split at h
  · simp only [bind_ok, pure_ok, Prod.mk.injEq] at h
    obtain ⟨-, -, -, rfl⟩ := h
    exact .inl rfl
  · unfold recordDecision insertDecision at h
    simp only [bind_ok, pure_ok, fetchOne_ok] at h
    obtain ⟨-, -, -, -, j₁, hinsert, -, -, ⟨row, j₂⟩, hupdate, _, hrow, h⟩ := h
    injection h with _ hj'
    dsimp only at hrow
    have hinserted : ∃ rows, j₁ = { j with decisions := rows }
        ∧ ((rows = j.decisions ++ [decision]
            ∧ ∀ other ∈ j.decisions, other.tickId ≠ decision.tickId)
          ∨ rows = j.decisions ∧ ∃ other ∈ j.decisions, other.tickId = decision.tickId) := by
      split at hinsert
      · next hany =>
          cases hinsert
          exact ⟨_, rfl, .inr ⟨rfl, by simpa using hany⟩⟩
      · next hany =>
          simp only [bind_ok, pure_ok] at hinsert
          obtain ⟨-, -, rfl⟩ := hinsert
          exact ⟨_, rfl, .inl ⟨rfl, by simpa using hany⟩⟩
    obtain ⟨rows, rfl, hrows⟩ := hinserted
    have hkey : ∀ tick : Tick, tick.Same { tick with
        changeDecisionId := some decision.decisionId
        version := tick.version + 1 } := fun _ => ⟨rfl, rfl⟩
    rcases updateTick_ok hkey hupdate with
      ⟨hnone, -⟩ | ⟨tick, hmem, hid, -, -, -, hj₂⟩
    · rw [hnone] at hrow
      cases hrow
    · rw [← hj', hj₂]
      refine .inr ⟨rfl, rfl, rfl, rfl, fun tickId => ?_, hrows⟩
      refine (decided_setTick (j := { j with decisions := rows }) hmem
        (hkey tick).tickId_eq).trans ?_
      rw [hbelongs.2, ← hid]
      by_cases heq : tickId = tick.tickId
      · simp [heq]
      · simp [heq, Decided]

-- ==== every run

/-- What the tables say of each other. -/
structure Traced (j : Journal) : Prop where
  evidence_ids : (j.evidence.map (·.evidenceCommitId)).Nodup
  evidence_attempt : ∀ evidence ∈ j.evidence, ∃ attempt ∈ j.attempts,
    attempt.attemptId = evidence.attemptId ∧ attempt.tickId = evidence.tickId
  current_of : ∀ row ∈ j.current, ∃ evidence ∈ j.evidence,
    evidence.evidenceCommitId = row.evidenceCommitId
  decided : ∀ tickId, Decided j tickId ↔ ∃ decision ∈ j.decisions, decision.tickId = tickId
  decided_once : (j.decisions.map (·.tickId)).Nodup

theorem Keeps.traced (h : Keeps j j') (hj : Traced j) : Traced j' where
  evidence_ids := h.evidence_eq ▸ hj.evidence_ids
  evidence_attempt := by
    intro evidence hevidence
    obtain ⟨attempt, hattempt, hid, htick⟩ :=
      hj.evidence_attempt evidence (h.evidence_eq ▸ hevidence)
    obtain ⟨attempt', hattempt', hid', htick'⟩ := h.attempts attempt hattempt
    exact ⟨attempt', hattempt', hid'.trans hid, htick'.trans htick⟩
  current_of := by
    rw [h.current_eq, h.evidence_eq]
    exact hj.current_of
  decided tickId := by
    rw [h.decided, h.decisions_eq]
    exact hj.decided tickId
  decided_once := h.decisions_eq ▸ hj.decided_once

theorem Commits.traced (h : Commits j j' evidence) (hj : Traced j) : Traced j' := by
  refine h.keeps.traced ?_
  constructor
  case evidence_ids =>
    rcases h.evidence with ⟨heq, -⟩ | ⟨heq, hfresh⟩
    · exact heq ▸ hj.evidence_ids
    · show (j'.evidence.map _).Nodup
      rw [heq, map_append, nodup_append]
      refine ⟨hj.evidence_ids, by simp, ?_⟩
      intro id hid other hother
      obtain ⟨row, hrow, rfl⟩ := mem_map.mp hid
      rw [map_singleton, mem_singleton] at hother
      exact hother ▸ hfresh row hrow
  case evidence_attempt =>
    intro row (hrow : row ∈ j'.evidence)
    rcases h.evidence with ⟨heq, -⟩ | ⟨heq, -⟩
    · exact hj.evidence_attempt row (heq ▸ hrow)
    · rcases mem_append.mp (heq ▸ hrow) with hrow | hrow
      · exact hj.evidence_attempt row hrow
      · exact mem_singleton.mp hrow ▸ h.attempt
  case current_of =>
    intro row hrow
    show ∃ evidence ∈ j'.evidence, _
    rcases h.advances.current_of row hrow with hrow | hnew
    · obtain ⟨other, hother, hid⟩ := hj.current_of row hrow
      rcases h.evidence with ⟨heq, -⟩ | ⟨heq, -⟩
      · exact ⟨other, heq ▸ hother, hid⟩
      · exact ⟨other, heq ▸ mem_append_left _ hother, hid⟩
    · rcases h.evidence with ⟨heq, other, hother, -, hid⟩ | ⟨heq, -⟩
      · exact ⟨other, heq ▸ hother, hid.trans hnew.symm⟩
      · exact ⟨evidence, heq ▸ mem_append_right _ (mem_singleton_self _), hnew.symm⟩
  case decided => exact hj.decided
  case decided_once => exact hj.decided_once

theorem Records.traced (h : Records j j' decision) (hj : Traced j) : Traced j' where
  evidence_ids := h.evidence_eq ▸ hj.evidence_ids
  evidence_attempt := by
    rw [h.evidence_eq, h.attempts_eq]
    exact hj.evidence_attempt
  current_of := by
    rw [h.current_eq, h.evidence_eq]
    exact hj.current_of
  decided tickId := by
    rw [h.decided, hj.decided]
    rcases h.decisions with ⟨heq, -⟩ | ⟨heq, other, hother, hid⟩
    · simp [heq, or_and_right, exists_or, or_comm, eq_comm]
    · rw [heq]
      refine or_iff_right_of_imp fun htick => ⟨other, hother, hid.trans htick.symm⟩
  decided_once := by
    rcases h.decisions with ⟨heq, hfresh⟩ | ⟨heq, -⟩
    · rw [heq, map_append, nodup_append]
      refine ⟨hj.decided_once, by simp, fun id hid other hother => ?_⟩
      obtain ⟨row, hrow, rfl⟩ := mem_map.mp hid
      rw [map_singleton, mem_singleton] at hother
      exact hother ▸ hfresh row hrow
    · exact heq ▸ hj.decided_once

/-- What a step does to the tables. -/
theorem step_cases {s : System} (hs : Sound s.journal) (event : Event) :
    Keeps s.journal (step event s).journal
      ∨ (∃ evidence, Commits s.journal (step event s).journal evidence)
      ∨ ∃ decision, Records s.journal (step event s).journal decision := by
  by_cases hquiet : event.IsQuiet
  · exact .inl (step_keeps hquiet hs)
  · cases event with
    | elapse seconds => exact absurd trivial hquiet
    | draw ids => exact absurd trivial hquiet
    | perform operation =>
      unfold step
      dsimp only
      split
      · next hperform =>
          cases operation with
          | commitEvidence claim attempt evidence =>
            obtain ⟨reply, h⟩ := snd_ok hperform
            exact .inr (.inl ⟨evidence, commitEvidence_ok hs h⟩)
          | recordChangeDecision claim decision =>
            obtain ⟨version, h⟩ := snd_ok hperform
            rcases recordChangeDecision_ok h with heq | hrecords
            · exact .inl (heq ▸ .refl _)
            · exact .inr (.inr ⟨decision, hrecords⟩)
          | _ => exact absurd trivial hquiet
      · exact .inl (.refl _)

/-- The tables of every reached state are traced. -/
theorem traced_of_reach {s : System} (h : Reach Starts step (fun _ _ => True) s) :
    Traced s.journal := by
  refine (h.inv (I := fun s => Sound s.journal ∧ Traced s.journal) ?_ ?_).2
  · intro s hs
    refine ⟨sound_of_starts hs, ?_⟩
    obtain ⟨runId, request, provider, research, ids, hcreated⟩ := hs
    rw [hcreated]
    constructor <;> simp [created, Decided]
  · rintro s event ⟨hsound, htraced⟩ -
    refine ⟨(step_sound_grows event hsound).1, ?_⟩
    rcases step_cases hsound event with hkeeps | ⟨_, hcommits⟩ | ⟨_, hrecords⟩
    · exact hkeeps.traced htraced
    · exact hcommits.traced htraced
    · exact hrecords.traced htraced

/-- What no later step takes back. -/
structure Extends (j j' : Journal) : Prop where
  evidence : j.evidence <+: j'.evidence
  decisions : j.decisions <+: j'.decisions
  decided : ∀ tickId, Decided j tickId → Decided j' tickId

theorem Extends.trans {a b c : Journal} (h : Extends a b) (h' : Extends b c) : Extends a c where
  evidence := h.evidence.trans h'.evidence
  decisions := h.decisions.trans h'.decisions
  decided tickId := h'.decided tickId ∘ h.decided tickId

theorem Keeps.extends (h : Keeps j j') : Extends j j' :=
  ⟨h.evidence_eq ▸ prefix_rfl, h.decisions_eq ▸ prefix_rfl, fun _ => (h.decided _).mpr⟩

theorem step_extends {s : System} (hs : Sound s.journal) (event : Event) :
    Extends s.journal (step event s).journal := by
  rcases step_cases hs event with hkeeps | ⟨_, hcommits⟩ | ⟨_, hrecords⟩
  · exact hkeeps.extends
  · refine { hcommits.keeps.extends with evidence := ?_ }
    rcases hcommits.evidence with ⟨heq, -⟩ | ⟨heq, -⟩
    · exact heq ▸ prefix_rfl
    · exact heq ▸ prefix_append _ _
  · refine ⟨hrecords.evidence_eq ▸ prefix_rfl, ?_, fun _ h => (hrecords.decided _).mpr (.inr h)⟩
    rcases hrecords.decisions with ⟨heq, -⟩ | ⟨heq, -⟩
    · exact heq ▸ prefix_append _ _
    · exact heq ▸ prefix_rfl

/-- In every reached state the tables agree, and whatever is done next only
adds to them. -/
theorem tables_traced {s : System} (h : Reach Starts step (fun _ _ => True) s)
    (events : List Event) :
    Traced s.journal ∧ Extends s.journal (run step s events).journal := by
  refine ⟨traced_of_reach h, ?_⟩
  induction events generalizing s with
  | nil => exact (Keeps.refl _).extends
  | cons event events ih =>
    exact (step_extends (sound_of_reach h) event).trans (ih (h.step event trivial))

theorem tables_traced_sample : decided.journal.decisions = [sampleDecision]
      ∧ Traced decided.journal
      ∧ Extends decided.journal (run step decided startedEvents).journal :=
  ⟨by decide, tables_traced (reach_sample _) startedEvents⟩

end MarketRegimeAlpha.Continuous
