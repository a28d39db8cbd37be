/-
The change decisions of a whole run.

A run is a row of turns (`History`): evidence is committed on a tick
later than those before, quiet events follow, and the worker, who still
holds the tick, decides. The commits are of one scope and one trading
date. What the tables hold is then determined (`Recorded`): the evidence
is that of the turns, and the scope points at the first commit of the
last stretch of equal material, its `anchor`.

A decision of no material change has to cite the commit that is pointed
at, and it cites the last one. Within a stretch these are the same only
once.
-/
import MarketRegimeAlpha.Continuous.Proofs.Tracing

namespace MarketRegimeAlpha.Continuous

open Lib Journal List

variable {j j' : Journal} {now : Instant} {claim : ClaimedRuntimeTick} {tick : Tick}
  {evidence : EvidenceCommit} {previous : Option EvidenceCommit} {decision : ChangeDecision}

-- ==== what a decision needs

/-- The evidence the decision cites is in the tables, and the scope
points at its material. -/
structure Cited (j : Journal) (evidence : EvidenceCommit) (previous : Option EvidenceCommit)
    (row : CurrentEvidence) : Prop where
  evidence_mem : evidence ∈ j.evidence
  previous_mem : ∀ other ∈ previous, other ∈ j.evidence ∧ other.runId = evidence.runId
  pointer_eq : pointer j.current evidence.evidenceScope = some row
  material_eq : row.materialIdentityHash = evidence.materialIdentityHash

variable {digest : Digest} {satisfied : Bool} {row : CurrentEvidence}

/-- Such a decision is in line with the tables unless it finds no change
against a commit that its scope does not point at. -/
theorem requireLineage_iff (hj : Sound j) (h : Cited j evidence previous row) :
    j.requireLineage (decisionOn digest evidence previous satisfied) = .ok () ↔
      (decisionTypeOf evidence previous satisfied = .noMaterialChange →
        previous.map (·.evidenceCommitId) = some row.evidenceCommitId) := by
  let decision := decisionOn digest evidence previous satisfied
  have hfound : j.evidence.find? (fun row => row.evidenceCommitId = decision.evidenceCommitId
      && row.runId = decision.runId && row.tickId = decision.tickId
      && row.commitHash = decision.evidenceCommitHash
      && row.attemptId = decision.providerAttemptId
      && row.materialIdentityHash = decision.currentMaterialIdentityHash) = some evidence := by
    cases hfind : j.evidence.find? _ with
    | none =>
      have := find?_eq_none.mp hfind evidence h.evidence_mem
      simp [decision, decisionOn] at this
    | some other =>
      have hmatch := find?_some hfind
      simp only [Bool.and_eq_true, decide_eq_true_eq] at hmatch
      rw [inj_on_of_nodup_map hj.one_commit (mem_of_find?_eq_some hfind)
        h.evidence_mem hmatch.1.2]
  have hprevious : ∀ cited ∈ decision.previousEvidence, j.evidence.any fun row =>
      row.evidenceCommitId = cited.commitId && row.runId = decision.runId
        && row.commitHash = cited.commitHash
        && row.materialIdentityHash = cited.materialIdentityHash := by
    intro cited hcited
    obtain ⟨other, hother, rfl⟩ := Option.mem_map.mp hcited
    obtain ⟨hmem, hrun⟩ := h.previous_mem other hother
    exact any_eq_true.mpr ⟨other, hmem, by simp [decision, decisionOn, hrun]⟩
  have hpointer := h.pointer_eq
  unfold pointer at hpointer
  show requireLineage j decision = _ ↔ _
  unfold requireLineage
  rw [hfound]
  rw [require, if_pos hprevious]
  simp only [fetchOne]
  simp [hpointer, decision, decisionOn, h.material_eq, Function.comp_def]
  by_cases htype : decisionTypeOf evidence previous satisfied = .noMaterialChange
  · simp [htype]
  · simp [htype, require]

theorem updateTick_eq {matching : Tick → Bool} {set : Tick → Tick} {runId tickId : String}
    (hheld : j.tick? runId tickId = some tick) (hmatching : matching tick = true)
    (hguard : guardTickMutation tick (set tick) = .ok ()) (hid : (set tick).tickId = tick.tickId) :
    j.updateTick runId tickId matching set
      = .ok (some (set tick), { j with ticks := setTick (set tick) j.ticks }) := by
  unfold updateTick
  simp only [hheld, hmatching, if_true, hguard]
  rw [setTick, hid, (tick?_some hheld).2.2]
  rfl

theorem updateTick_held {set : Tick → Tick} {runId tickId : String}
    (hheld : j.tick? runId tickId = some tick) (hholds : claim.holds now tick = true)
    (hset : (set tick).tickId = tick.tickId ∧ (set tick).version = tick.version + 1
      ∧ ((set tick).status = .inProgress → (set tick).lease = tick.lease
        ∧ (set tick).fencingToken = tick.fencingToken)) :
    j.updateTick runId tickId (claim.holds now) set
      = .ok (some (set tick), { j with ticks := setTick (set tick) j.ticks }) := by
  obtain ⟨hid, hversion, hclaim⟩ := hset
  have hstatus : tick.status = .inProgress := by
    simp [ClaimedRuntimeTick.holds, ClaimedRuntimeTick.holdsFence] at hholds
    exact hholds.1.1.1
  have hguard : guardTickMutation tick (set tick) = .ok () := by
    unfold guardTickMutation
    simp only [bind_ok, require_ok, hversion, hstatus]
    refine ⟨(), trivial, (), by decide, fun h => ?_⟩
    obtain ⟨hlease, htoken⟩ := hclaim h.2.1
    simp [hlease, htoken] at h
  exact updateTick_eq hheld hholds hguard hid

/-- A holder who has not decided its tick records a decision that is in
line with the tables. -/
theorem recordChangeDecision_eq {decision : ChangeDecision}
    (hheld : j.tick? claim.runId claim.tickId = some tick) (hholds : claim.holds now tick = true)
    (hbelongs : decision.runId = claim.runId ∧ decision.tickId = claim.tickId)
    (hnone : tick.changeDecisionId = none)
    (hfirst : ∀ other ∈ j.decisions, other.tickId ≠ decision.tickId)
    (hfresh : ∀ other ∈ j.decisions, other.decisionId ≠ decision.decisionId) :
    ∃ j', j.recordChangeDecision now claim decision = (do
        j.requireLineage decision
        .ok (tick.version + 1, j'))
      ∧ j' = { j with
        decisions := j.decisions ++ [decision]
        ticks := setTick { tick with
          changeDecisionId := some decision.decisionId
          version := tick.version + 1 } j.ticks }.insertEvent
            (some claim.tickId) .changeDecided now (some claim.fencingToken) := by
  have hhold : claim.holdsFence now tick = true ∧ tick.version = claim.tickVersion := by
    simpa [ClaimedRuntimeTick.holds] using hholds
  have hany : (j.decisions.any fun row => row.tickId = decision.tickId) = false := by
    simpa using hfirst
  have hactive : (j.tick? claim.runId claim.tickId).filter (claim.holdsFence now) = some tick := by
    rw [hheld, Option.filter_some, if_pos hhold.1]
  refine ⟨_, ?_, rfl⟩
  unfold recordChangeDecision
  rw [require_true hbelongs, ok_bind, hactive]
  simp only [fetchOne, ok_bind, hnone, hhold.2, require_true]
  unfold recordDecision insertDecision
  cases hlineage : j.requireLineage decision with
  | error e => rfl
  | ok u =>
    rw [hany, ok_bind, if_neg (by decide), require_true hfresh, ok_bind]
    simp only [pure, Except.pure, ok_bind]
    rw [require_true (by simp), ok_bind, updateTick_held ?_ hholds ?_]
    · simp only [fetchOne, ok_bind, hhold.2]
    · exact hheld
    · exact ⟨rfl, rfl, fun _ => ⟨rfl, rfl⟩⟩

/-- So the decision on evidence is recorded, unless it finds no change
against a commit that its scope does not point at. -/
theorem recorded_iff (hj : Sound j) (ht : Traced j) (h : Cited j evidence previous row)
    (hheld : j.tick? claim.runId claim.tickId = some tick) (hholds : claim.holds now tick = true)
    (hbelongs : evidence.runId = claim.runId ∧ evidence.tickId = claim.tickId)
    (hundecided : ¬ Decided j evidence.tickId)
    (hfresh : ∀ other ∈ j.decisions, other.decisionId
      ≠ (decisionOn digest evidence previous satisfied).decisionId) :
    (∃ reply, j.recordChangeDecision now claim (decisionOn digest evidence previous satisfied)
        = .ok reply) ↔
      (decisionTypeOf evidence previous satisfied = .noMaterialChange →
        previous.map (·.evidenceCommitId) = some row.evidenceCommitId) := by
  have hnone : tick.changeDecisionId = none := by
    rw [← Option.not_isSome_iff_eq_none, ← decided_iff hj.ids_nodup (tick?_some hheld).2.1,
      (tick?_some hheld).2.2, ← hbelongs.2]
    exact hundecided
  have hfirst : ∀ other ∈ j.decisions, other.tickId ≠ evidence.tickId :=
    fun other hother heq => hundecided ((ht.decided _).mpr ⟨other, hother, heq⟩)
  have hlineage : j.requireLineage (decisionOn digest evidence previous satisfied) = .ok () ↔ _ :=
    requireLineage_iff hj h
  obtain ⟨j', hrecord, -⟩ := recordChangeDecision_eq hheld hholds hbelongs hnone hfirst hfresh
  rw [← hlineage, hrecord]
  constructor
  · rintro ⟨reply, hreply⟩
    obtain ⟨_, hlineage, -⟩ := bind_ok.mp hreply
    exact hlineage
  · intro hlineage
    rw [hlineage]
    exact ⟨_, rfl⟩

-- ==== a run, turn by turn

/-- A turn of a tick: what it committed, what it was compared with, and
whether its decision was recorded. -/
structure Turn where
  evidence : EvidenceCommit
  decisionType : DecisionType
  accepted : Bool

/-- The decision on evidence that is created from the commit before it,
recorded. -/
def decideOn (digest : Digest) (tradingDate : EvidenceCommit → String)
    (claim : ClaimedRuntimeTick) (evidence : EvidenceCommit) (s : System) :
    Except Error Journal := do
  let previous := s.journal.getPriorEvidenceCommit evidence.runId evidence.tickId
    evidence.evidenceScope
  let decision ← ChangeDecision.create digest tradingDate evidence previous true
  let (_, j) ← s.journal.recordChangeDecision s.now claim decision
  return j

/-- The turn of a tick whose evidence is committed, and the state after
it. -/
def turnAt (digest : Digest) (tradingDate : EvidenceCommit → String)
    (claim : ClaimedRuntimeTick) (evidence : EvidenceCommit) (s : System) : Turn × System :=
  let previous := s.journal.getPriorEvidenceCommit evidence.runId evidence.tickId
    evidence.evidenceScope
  let outcome := decideOn digest tradingDate claim evidence s
  (⟨evidence, decisionTypeOf evidence previous true, outcome.isOk⟩,
    match outcome with
    | .ok j => { s with journal := j }
    | .error _ => s)

/-- Evidence of later and later ticks is committed and decided, with
whatever else between. The last turn comes first. -/
inductive History (digest : Digest) (tradingDate : EvidenceCommit → String) (scope : String) :
    List Turn → System → Prop
  | start {s : System} : Starts s → History digest tradingDate scope [] s
  | quiet {turns : List Turn} {s : System} (event : Event) :
      History digest tradingDate scope turns s → event.IsQuiet →
      History digest tradingDate scope turns (step event s)
  | turn {turns : List Turn} {s s' : System} {claim claim' : ClaimedRuntimeTick}
      {attempt : ProviderAttemptSnapshot} {evidence : EvidenceCommit} {events : List Event}
      (h : History digest tradingDate scope turns s)
      (hcommit : (s.journal.commitEvidence s.now claim attempt evidence).isOk)
      (hscope : evidence.evidenceScope = scope)
      (hdate : ∀ turn ∈ turns, tradingDate turn.evidence = tradingDate evidence)
      (hlater : ∀ turn ∈ turns, ∀ m ∈ s.journal.sequenceOf evidence.runId turn.evidence.tickId,
        ∀ n ∈ s.journal.sequenceOf evidence.runId evidence.tickId, m < n)
      (hquiet : ∀ event ∈ events, event.IsQuiet)
      (hs' : s' = run step (step (.perform (.commitEvidence claim attempt evidence)) s) events)
      (hcurrent : Current s' claim') (hclaim : claim'.tickId = evidence.tickId) :
      History digest tradingDate scope
        ((turnAt digest tradingDate claim' evidence s').1 :: turns)
        (turnAt digest tradingDate claim' evidence s').2

def typesOf : List String → List DecisionType
  | [] => []
  | [_] => [.initialEvidence]
  | material :: before :: rest =>
    (if material = before then .noMaterialChange else .materialChange) :: typesOf (before :: rest)

def NoThreeAlike : List String → Prop
  | a :: b :: c :: rest => ¬ (a = b ∧ b = c) ∧ NoThreeAlike (b :: c :: rest)
  | _ => True

/-- What the decisions of a run, and what its scope points at, should
be. -/
structure Lawful (scope : String) (turns : List Turn) (s : System) : Prop where
  accepted : ∀ turn ∈ turns, turn.accepted = true
  types : turns.map (·.decisionType) = typesOf (turns.map (·.evidence.materialIdentityHash))
  pointed : ∀ turn ∈ turns.head?, ∃ row, pointer s.journal.current scope = some row
    ∧ row.materialIdentityHash = turn.evidence.materialIdentityHash

-- ==== what the tables hold

/-- The first commit of the last stretch of equal material. -/
def anchor : List EvidenceCommit → Option EvidenceCommit
  | [] => none
  | [commit] => some commit
  | commit :: before :: rest =>
    if commit.materialIdentityHash = before.materialIdentityHash then anchor (before :: rest)
    else some commit

theorem anchor_cons (commit : EvidenceCommit) (rest : List EvidenceCommit) :
    ∃ first ∈ commit :: rest, anchor (commit :: rest) = some first
      ∧ first.materialIdentityHash = commit.materialIdentityHash := by
  induction rest generalizing commit with
  | nil => exact ⟨commit, mem_cons_self, rfl, rfl⟩
  | cons before rest ih =>
    unfold anchor
    split
    · next heq =>
        obtain ⟨first, hmem, hfirst, hmaterial⟩ := ih before
        exact ⟨first, mem_cons_of_mem _ hmem, hfirst, hmaterial.trans heq.symm⟩
    · exact ⟨commit, mem_cons_self, rfl, rfl⟩

def Later (j : Journal) (later earlier : EvidenceCommit) : Prop :=
  ∃ m n, j.sequenceOf j.runId earlier.tickId = some m
    ∧ j.sequenceOf j.runId later.tickId = some n ∧ m < n

/-- What the tables hold after some commits, the last one first. -/
structure Recorded (digest : Digest) (scope : String) (commits : List EvidenceCommit)
    (s : System) : Prop where
  reach : Reach Starts step (fun _ _ => True) s
  evidence : s.journal.evidence = commits.reverse
  of_run : ∀ commit ∈ commits, commit.runId = s.journal.runId ∧ commit.evidenceScope = scope
  ordered : commits.Pairwise (Later s.journal)
  decisions : ∀ decision ∈ s.journal.decisions, ∃ commit ∈ commits,
    decision.tickId = commit.tickId
      ∧ ∃ previous type, decision.decisionId = digest.decisionId commit previous type
  pointed : (pointer s.journal.current scope).map
      (fun row => (row.evidenceCommitId, row.materialIdentityHash))
    = (anchor commits).map fun commit => (commit.evidenceCommitId, commit.materialIdentityHash)

theorem tick?_of_mem (hj : Sound j) {runId : String} (hrun : runId = j.runId)
    (hmem : tick ∈ j.ticks) : j.tick? runId tick.tickId = some tick := by
  unfold tick?
  rw [if_pos hrun]
  cases hfind : j.ticks.find? _ with
  | none => simpa using find?_eq_none.mp hfind tick hmem
  | some other =>
    have hid : other.tickId = tick.tickId := by simpa using find?_some hfind
    rw [inj_on_of_nodup_map hj.ids_nodup (mem_of_find?_eq_some hfind) hmem hid]

theorem sequenceOf_grows (hj : Sound j') (hgrows : Grows j j') (hrun : j'.runId = j.runId)
    {runId tickId : String} {n : Nat} (h : j.sequenceOf runId tickId = some n) :
    j'.sequenceOf runId tickId = some n := by
  obtain ⟨tick, htick, rfl⟩ := Option.map_eq_some_iff.mp h
  obtain ⟨hrunId, hmem, rfl⟩ := tick?_some htick
  obtain ⟨tick', hmem', hsame, -⟩ := hgrows tick hmem
  unfold sequenceOf
  rw [← hsame.tickId_eq, tick?_of_mem hj (hrunId.trans hrun.symm) hmem']
  exact congrArg some hsame.sequence_eq

variable {s : System} {scope : String} {commits : List EvidenceCommit}

theorem Later.grows {later earlier : EvidenceCommit} (h : Later j later earlier)
    (hj : Sound j') (hgrows : Grows j j') (hrun : j'.runId = j.runId) :
    Later j' later earlier := by
  obtain ⟨m, n, hm, hn, hlt⟩ := h
  rw [← hrun] at hm hn
  exact ⟨m, n, sequenceOf_grows hj hgrows hrun hm, sequenceOf_grows hj hgrows hrun hn, hlt⟩

variable (h : Recorded digest scope commits s)

include h in
theorem Recorded.quiet {event : Event}
    (hquiet : event.IsQuiet) : Recorded digest scope commits (step event s) := by
  have hsound := sound_of_reach h.reach
  have hkeeps := step_keeps hquiet hsound
  obtain ⟨hsound', hgrows⟩ := step_sound_grows event hsound
  constructor
  case reach => exact .step event h.reach trivial
  case evidence => rw [hkeeps.evidence_eq, h.evidence]
  case of_run => rw [hkeeps.runId_eq]; exact h.of_run
  case ordered => exact h.ordered.imp fun hlater => hlater.grows hsound' hgrows hkeeps.runId_eq
  case decisions => rw [hkeeps.decisions_eq]; exact h.decisions
  case pointed => rw [hkeeps.current_eq]; exact h.pointed

include h in
theorem Recorded.quietly {events : List Event}
    (hquiet : ∀ event ∈ events, event.IsQuiet) : Recorded digest scope commits (run step s events)
      ∧ ∀ tickId, Decided (run step s events).journal tickId ↔ Decided s.journal tickId := by
  induction events generalizing s with
  | nil => exact ⟨h, fun _ => Iff.rfl⟩
  | cons event events ih =>
    have hevent := hquiet event mem_cons_self
    obtain ⟨hrecorded, hdecided⟩ := ih (h.quiet hevent)
      fun other hother => hquiet other (mem_cons_of_mem _ hother)
    have hkeeps := step_keeps hevent (sound_of_reach h.reach)
    exact ⟨hrecorded, fun tickId => (hdecided tickId).trans (hkeeps.decided tickId)⟩

theorem sequenceOf_isSome (hj : Sound j) (hrun : evidence.runId = j.runId)
    (htick : ∃ tick ∈ j.ticks, tick.tickId = evidence.tickId) :
    ∃ n, j.sequenceOf evidence.runId evidence.tickId = some n := by
  obtain ⟨tick, hmem, hid⟩ := htick
  unfold sequenceOf
  rw [← hid, tick?_of_mem hj hrun hmem]
  exact ⟨_, rfl⟩

include h in
/-- Evidence of a later tick is one more commit, and the tick is not
decided. -/
theorem Recorded.commit {attempt : ProviderAttemptSnapshot}
    (hcommit : (s.journal.commitEvidence s.now claim attempt evidence).isOk)
    (hscope : evidence.evidenceScope = scope)
    (hlater : ∀ commit ∈ commits, ∀ m ∈ s.journal.sequenceOf evidence.runId commit.tickId,
      ∀ n ∈ s.journal.sequenceOf evidence.runId evidence.tickId, m < n) :
    let s' := step (.perform (.commitEvidence claim attempt evidence)) s
    Recorded digest scope (evidence :: commits) s' ∧ ¬ Decided s'.journal evidence.tickId := by
  obtain ⟨⟨reply, j'⟩, hcommit⟩ := exists_of_isOk hcommit
  have hsound := sound_of_reach h.reach
  have htraced := traced_of_reach h.reach
  have hc := commitEvidence_ok hsound hcommit
  obtain ⟨n, hn⟩ := sequenceOf_isSome hsound hc.run hc.tick
  have hother : ∀ commit ∈ commits, commit.tickId ≠ evidence.tickId := by
    intro commit hmem heq
    exact lt_irrefl n (hlater commit hmem n (heq ▸ hn) n hn)
  have hstep : step (.perform (.commitEvidence claim attempt evidence)) s
      = { s with journal := j' } := by
    simp [step, Operation.perform, hcommit]
  obtain ⟨hsound', hgrows⟩ := hstep ▸
    step_sound_grows (.perform (.commitEvidence claim attempt evidence)) hsound
  rw [hstep]
  have hrunId : j'.runId = s.journal.runId := hc.keeps.runId_eq
  have hevidence : j'.evidence = s.journal.evidence ++ [evidence] := by
    rcases hc.evidence with ⟨-, other, hmem, hattempt, -⟩ | ⟨heq, -⟩
    · obtain ⟨a, ha, haid, hatick⟩ := htraced.evidence_attempt other hmem
      obtain ⟨b, hb, hbid, hbtick⟩ := hc.attempt
      have hab := inj_on_of_nodup_map hsound.attempt_ids_nodup ha hb
        (haid.trans (hattempt.trans hbid.symm))
      refine absurd (hatick.symm.trans ((congrArg _ hab).trans hbtick)) (hother other ?_)
      rwa [h.evidence, mem_reverse] at hmem
    · exact heq
  refine ⟨?_, ?_⟩
  · constructor
    case reach => exact hstep ▸ .step _ h.reach trivial
    case evidence => rw [reverse_cons, ← h.evidence]; exact hevidence
    case of_run =>
      intro commit hmem
      show commit.runId = j'.runId ∧ _
      rw [hrunId]
      rcases mem_cons.mp hmem with rfl | hmem
      · exact ⟨hc.run, hscope⟩
      · exact h.of_run commit hmem
    case ordered =>
      refine pairwise_cons.mpr ⟨fun commit hmem => ?_,
        h.ordered.imp fun hl => hl.grows hsound' hgrows hrunId⟩
      obtain ⟨a, ha, -, hatick⟩ := htraced.evidence_attempt commit
        (by rw [h.evidence]; exact mem_reverse.mpr hmem)
      obtain ⟨tick, htick, hid, -⟩ := hsound.attempt_of a ha
      have hrun := (h.of_run commit hmem).1
      obtain ⟨m, hm⟩ := sequenceOf_isSome hsound hrun ⟨tick, htick, hid.trans hatick⟩
      rw [hrun, ← hc.run] at hm
      have hlt := hlater commit hmem m hm n hn
      rw [hc.run] at hm hn
      exact Later.grows ⟨m, n, hm, hn, hlt⟩ hsound' hgrows hrunId
    case decisions =>
      intro decision hdecision
      obtain ⟨commit, hmem, hrest⟩ := h.decisions decision
        (hc.keeps.decisions_eq ▸ hdecision)
      exact ⟨commit, mem_cons_of_mem _ hmem, hrest⟩
    case pointed =>
      have hpointed := h.pointed
      rw [← hscope] at hpointed ⊢
      cases hcommits : commits with
      | nil =>
        rw [hcommits] at hpointed
        rcases hc.advances.pointer with ⟨row, hrow, -, -⟩ | ⟨-, row, hrow, hid, hmaterial⟩
        · simp [hrow, anchor] at hpointed
        · simp [hrow, anchor, hid, hmaterial]
      | cons before rest =>
        rw [hcommits] at hpointed
        obtain ⟨first, -, hfirst, hsame⟩ := anchor_cons before rest
        rw [hfirst, Option.map_some, Option.map_eq_some_iff] at hpointed
        obtain ⟨old, hold, heq⟩ := hpointed
        obtain ⟨hid, hmaterial⟩ := Prod.mk.inj heq
        rcases hc.advances.pointer with ⟨row, hrow, hequal, hrow'⟩ | ⟨hdiffers, row, hrow, hnew⟩
        · obtain rfl : row = old := Option.some.inj (hrow.symm.trans hold)
          have hboth : evidence.materialIdentityHash = before.materialIdentityHash := by
            rw [← hequal, hmaterial, hsame]
          simp [anchor, hboth, hrow', hfirst, hid, hmaterial]
        · have hboth : evidence.materialIdentityHash ≠ before.materialIdentityHash := by
            rw [← hsame, ← hmaterial]
            exact (hdiffers old hold).symm
          simp [anchor, hboth, hrow, hnew]
  · rw [hc.keeps.decided]
    intro hdecided
    obtain ⟨decision, hdecision, htick⟩ := (htraced.decided _).mp hdecided
    obtain ⟨commit, hmem, heq, -⟩ := h.decisions decision hdecision
    exact hother commit hmem (heq.symm.trans htick)

/-- The prior commit of the last tick is the one before. -/
theorem Recorded.prior (h : Recorded digest scope (evidence :: commits) s) :
    s.journal.getPriorEvidenceCommit evidence.runId evidence.tickId scope = commits.head? := by
  obtain ⟨hfirst, hrest⟩ := pairwise_cons.mp h.ordered
  have hrun := (h.of_run evidence mem_cons_self).1
  let place (commit : EvidenceCommit) : Nat :=
    (s.journal.sequenceOf s.journal.runId commit.tickId).getD 0
  have hprior : s.journal.priorEvidence evidence.runId evidence.tickId scope
      = commits.reverse.map fun commit => (place commit, commit) := by
    unfold priorEvidence
    rw [h.evidence, reverse_cons, filterMap_append, hrun]
    refine (congrArg₂ _ ?_ ?_).trans (append_nil _)
    · rw [← filterMap_eq_map]
      refine filterMap_congr fun commit hmem => ?_
      have hmem := mem_reverse.mp hmem
      obtain ⟨m, n, hm, hn, hlt⟩ := hfirst commit hmem
      obtain ⟨hcommitRun, hcommitScope⟩ := h.of_run commit (mem_cons_of_mem _ hmem)
      simp [hm, hn, hlt, hcommitRun, hcommitScope, place]
    · rw [filterMap_eq_nil_iff]
      intro row hrow
      rw [mem_singleton.mp hrow]
      cases s.journal.sequenceOf s.journal.runId evidence.tickId with
      | none => rfl
      | some n => simp
  have hsorted : (commits.reverse.map fun commit => (place commit, commit)).Pairwise
      fun a b => a.1 ≤ b.1 := by
    rw [pairwise_map, pairwise_reverse]
    refine hrest.imp fun hlater => ?_
    obtain ⟨m, n, hm, hn, hlt⟩ := hlater
    simp [place, hm, hn, hlt.le]
  unfold getPriorEvidenceCommit
  rw [hprior, sortBy, List.Pairwise.insertionSort_eq hsorted, map_reverse,
    getLast?_reverse]
  cases commits with
  | nil => rfl
  | cons before rest => rfl

theorem noThreeAlike_cons {a : String} {rest : List String} : NoThreeAlike (a :: rest) ↔
    (∀ b c tail, rest = b :: c :: tail → ¬ (a = b ∧ b = c)) ∧ NoThreeAlike rest := by
  match rest with
  | [] => simp [NoThreeAlike]
  | [b] => simp [NoThreeAlike]
  | b :: c :: tail => simp [NoThreeAlike]

/-- The commit before is the one pointed at, unless it is the second of
its stretch or a later one. -/
theorem anchored_iff (hids : ((evidence :: commits).map (·.evidenceCommitId)).Nodup) :
    (decisionTypeOf evidence commits.head? true = .noMaterialChange →
      commits.head?.map (·.evidenceCommitId)
        = (anchor (evidence :: commits)).map (·.evidenceCommitId)) ↔
      ∀ b c tail, commits.map (·.materialIdentityHash) = b :: c :: tail →
        ¬ (evidence.materialIdentityHash = b ∧ b = c) := by
  match commits with
  | [] => simp [decisionTypeOf]
  | [before] =>
    by_cases h : before.materialIdentityHash = evidence.materialIdentityHash
    · simp [decisionTypeOf, anchor, h]
    · simp [decisionTypeOf, h]
  | before :: second :: rest =>
    by_cases h : before.materialIdentityHash = evidence.materialIdentityHash
    · by_cases h' : before.materialIdentityHash = second.materialIdentityHash
      · obtain ⟨first, hmem, hfirst, -⟩ := anchor_cons second rest
        have hne : before.evidenceCommitId ≠ first.evidenceCommitId := by
          intro heq
          have hnodup := (nodup_cons.mp hids).2
          have hfirstId := mem_map_of_mem (f := (·.evidenceCommitId)) hmem
          rw [← heq] at hfirstId
          exact (nodup_cons.mp hnodup).1 hfirstId
        simp [decisionTypeOf, anchor, ← h, h', hfirst] at hne ⊢
        exact hne
      · simp [decisionTypeOf, anchor, ← h, h']
    · have hne : ¬ evidence.materialIdentityHash = before.materialIdentityHash := fun heq => h heq.symm
      simp [decisionTypeOf, h, hne]

include h in
/-- A decision on one of the commits is recorded. -/
theorem Recorded.record {version : Nat} {previous : Option EvidenceCommit}
    (hmem : evidence ∈ commits)
    (hrecord : s.journal.recordChangeDecision s.now claim
      (decisionOn digest evidence previous satisfied) = .ok (version, j')) :
    Recorded digest scope commits { s with journal := j' } := by
  have hsound := sound_of_reach h.reach
  have hstep : step (.perform (.recordChangeDecision claim
      (decisionOn digest evidence previous satisfied))) s = { s with journal := j' } := by
    simp [step, Operation.perform, hrecord]
  have hreach : Reach Starts step (fun _ _ => True) { s with journal := j' } :=
    hstep ▸ .step _ h.reach trivial
  obtain ⟨hsound', hgrows⟩ := hstep ▸ step_sound_grows (.perform (.recordChangeDecision claim
      (decisionOn digest evidence previous satisfied))) hsound
  rcases recordChangeDecision_ok hrecord with rfl | hr
  · exact h
  · constructor
    case reach => exact hreach
    case evidence => exact hr.evidence_eq.trans h.evidence
    case of_run =>
      intro commit hcommit
      exact hr.runId_eq ▸ h.of_run commit hcommit
    case ordered => exact h.ordered.imp fun hlater => hlater.grows hsound' hgrows hr.runId_eq
    case decisions =>
      intro decision hdecision
      rcases hr.decisions with ⟨heq, -⟩ | ⟨heq, -⟩
      · rcases mem_append.mp (heq ▸ hdecision) with hold | hnew
        · exact h.decisions decision hold
        · rw [mem_singleton.mp hnew]
          exact ⟨evidence, hmem, rfl, previous, _, rfl⟩
      · exact h.decisions decision (heq ▸ hdecision)
    case pointed => exact hr.current_eq ▸ h.pointed

variable (hdigest : ∀ e e' p p' t t', e.tickId ≠ e'.tickId → digest.decisionId e p t ≠
    digest.decisionId e' p' t')

include hdigest in
/-- The last tick's decision is accepted, unless its material is that of
the two ticks before. -/
theorem Recorded.decide {tradingDate : EvidenceCommit → String}
    (h : Recorded digest scope (evidence :: commits) s)
    (hdate : ∀ commit ∈ commits, tradingDate commit = tradingDate evidence)
    (hundecided : ¬ Decided s.journal evidence.tickId) (hcurrent : Current s claim)
    (hclaim : claim.tickId = evidence.tickId) :
    ((decideOn digest tradingDate claim evidence s).isOk ↔
      ∀ b c tail, commits.map (·.materialIdentityHash) = b :: c :: tail →
        ¬ (evidence.materialIdentityHash = b ∧ b = c))
      ∧ Recorded digest scope (evidence :: commits)
        (turnAt digest tradingDate claim evidence s).2 := by
  have hsound := sound_of_reach h.reach
  have htraced := traced_of_reach h.reach
  obtain ⟨hrun, hscope⟩ := h.of_run evidence mem_cons_self
  have hmem : ∀ commit ∈ evidence :: commits, commit ∈ s.journal.evidence := by
    intro commit hcommit
    rw [h.evidence]
    exact mem_reverse.mpr hcommit
  have hhead : ∀ commit ∈ commits.head?, commit ∈ commits :=
    fun commit hcommit => mem_of_mem_head? hcommit
  have hcreate : ChangeDecision.create digest tradingDate evidence commits.head? true
      = .ok (decisionOn digest evidence commits.head? true) := by
    unfold ChangeDecision.create
    rw [require_true]
    · rfl
    · intro commit hcommit
      have hin := hhead commit hcommit
      obtain ⟨hcommitRun, hcommitScope⟩ := h.of_run commit (mem_cons_of_mem _ hin)
      exact ⟨hcommitRun.trans hrun.symm, hcommitScope.trans hscope.symm, hdate commit hin⟩
  obtain ⟨first, -, hfirst, hmaterial⟩ := anchor_cons evidence commits
  have hpointed := h.pointed
  rw [hfirst, Option.map_some, Option.map_eq_some_iff] at hpointed
  obtain ⟨row, hrow, heq⟩ := hpointed
  obtain ⟨hrowId, hrowMaterial⟩ := Prod.mk.inj heq
  have hcited : Cited s.journal evidence commits.head? row := {
    evidence_mem := hmem evidence mem_cons_self
    previous_mem := fun commit hcommit =>
      have hin := mem_cons_of_mem _ (hhead commit hcommit)
      ⟨hmem commit hin, (h.of_run commit hin).1.trans hrun.symm⟩
    pointer_eq := hscope ▸ hrow
    material_eq := hrowMaterial.trans hmaterial }
  obtain ⟨tick, htick, hclaimRun, htickId, hholds⟩ := hcurrent
  have hheld := tick?_of_mem hsound hclaimRun htick
  rw [htickId] at hheld
  have hfresh : ∀ other ∈ s.journal.decisions, other.decisionId
      ≠ (decisionOn digest evidence commits.head? true).decisionId := by
    intro other hother
    obtain ⟨commit, -, heq, previous, type, hid⟩ := h.decisions other hother
    rw [hid]
    refine hdigest commit evidence previous _ type _ fun hsame => hundecided ?_
    exact (htraced.decided _).mpr ⟨other, hother, heq.trans hsame⟩
  have hrecorded := recorded_iff hsound htraced hcited hheld hholds
    ⟨hrun.trans hclaimRun.symm, hclaim.symm⟩ hundecided hfresh
  have hids : ((evidence :: commits).map (·.evidenceCommitId)).Nodup := by
    have := htraced.evidence_ids
    rwa [h.evidence, map_reverse, nodup_reverse] at this
  rw [← anchored_iff hids, hfirst, Option.map_some, ← hrowId, ← hrecorded]
  unfold turnAt decideOn
  dsimp only
  rw [hscope, h.prior, hcreate, ok_bind]
  cases hrecord : s.journal.recordChangeDecision s.now claim
      (decisionOn digest evidence commits.head? true) with
  | error e => exact ⟨by simp [Except.isOk, Except.toBool, bind, Except.bind], h⟩
  | ok reply =>
    obtain ⟨version, j'⟩ := reply
    refine ⟨by simp [Except.isOk, Except.toBool, bind, Except.bind, pure, Except.pure],
      h.record mem_cons_self hrecord⟩

-- ==== the law of a run

theorem typesOf_cons : typesOf ((evidence :: commits).map (·.materialIdentityHash))
    = decisionTypeOf evidence commits.head? true
      :: typesOf (commits.map (·.materialIdentityHash)) := by
  cases commits with
  | nil => rfl
  | cons before rest => simp [typesOf, decisionTypeOf, eq_comm]

variable {tradingDate : EvidenceCommit → String} {turns : List Turn}

include hdigest in
theorem History.recorded (h : History digest tradingDate scope turns s) :
    Recorded digest scope (turns.map (·.evidence)) s
      ∧ turns.map (·.decisionType) = typesOf (turns.map (·.evidence.materialIdentityHash))
      ∧ ((∀ turn ∈ turns, turn.accepted = true)
        ↔ NoThreeAlike (turns.map (·.evidence.materialIdentityHash))) := by
  induction h with
  | @start s hs =>
    have hcreated := hs
    obtain ⟨runId, request, provider, research, ids, hcreated⟩ := hcreated
    refine ⟨⟨.start hs, ?_, by simp, by simp, ?_, ?_⟩, rfl, by simp [NoThreeAlike]⟩
    · rw [hcreated]; rfl
    · rw [hcreated]; simp [created]
    · rw [hcreated]; rfl
  | quiet event _ hquiet ih => exact ⟨ih.1.quiet hquiet, ih.2⟩
  | @turn turns s s' claim claim' attempt evidence events _ hcommit hscope hdate hlater hquiet hs'
      hcurrent hclaim ih =>
    obtain ⟨hrecorded, htypes, haccepted⟩ := ih
    obtain ⟨hcommitted, hundecided⟩ := hrecorded.commit hcommit hscope
      (by simpa using hlater)
    obtain ⟨hquietly, hdecided⟩ := hcommitted.quietly hquiet
    rw [← hs'] at hquietly hdecided
    obtain ⟨hiff, hafter⟩ := hquietly.decide hdigest (by simpa using hdate)
      (fun hd => hundecided ((hdecided _).mp hd)) hcurrent hclaim
    refine ⟨hafter, ?_, ?_⟩
    · have hmaterials := @typesOf_cons evidence (turns.map (·.evidence))
      rw [map_map] at hmaterials
      unfold turnAt
      rw [map_cons, htypes, hscope, hquietly.prior]
      simpa [Function.comp_def] using hmaterials.symm
    · rw [forall_mem_cons, haccepted, map_cons, noThreeAlike_cons]
      simp only [map_map] at hiff
      exact and_congr_left fun _ => hiff

/-- The decisions of a run, and what its scope points at, are as they
should be exactly when no three ticks in a row have the same material. -/
theorem history_lawful_iff (hdigest : ∀ e e' p p' t t', e.tickId ≠ e'.tickId →
      digest.decisionId e p t ≠ digest.decisionId e' p' t')
    (h : History digest tradingDate scope turns s) : Lawful scope turns s ↔
      NoThreeAlike (turns.map (·.evidence.materialIdentityHash)) := by
  obtain ⟨hrecorded, htypes, haccepted⟩ := h.recorded hdigest
  refine ⟨fun hlawful => haccepted.mp hlawful.accepted, fun hthree => ?_⟩
  refine ⟨haccepted.mpr hthree, htypes, ?_⟩
  intro turn hturn
  obtain ⟨rest, rfl⟩ := head?_eq_some_iff.mp hturn
  obtain ⟨first, -, hfirst, hmaterial⟩ := anchor_cons turn.evidence (rest.map (·.evidence))
  have hpointed := hrecorded.pointed
  rw [map_cons, hfirst, Option.map_some, Option.map_eq_some_iff] at hpointed
  obtain ⟨row, hrow, heq⟩ := hpointed
  exact ⟨row, hrow, (Prod.mk.inj heq).2.trans hmaterial⟩

-- ==== ticks with the same material

section Sample

def sampleDigest : Digest := ⟨fun evidence _ _ => evidence.tickId, fun evidence _ _ => evidence.tickId⟩

def tickName : Nat → String
  | 0 => "first"
  | 1 => "second"
  | _ => "third"

def turnClaim (n version : Nat) (hversion : 1 ≤ version) : ClaimedRuntimeTick :=
  { sampleClaim version hversion with tickId := tickName n }

variable (n : Nat)

/-- A tick is admitted and claimed, and its provider attempt succeeds. -/
def turnEvents : List Event :=
  [.perform (.admitTick { sampleCommand with tickId := tickName n, idempotencyKey := tickName n }
      .morningSession),
    .perform (.claimTick "run" (tickName n) "first" 30),
    .perform (.startProviderAttempt (turnClaim n 2 Nat.zero_lt_two)),
    .perform (.completeProviderAttempt (turnClaim n 3 (Nat.le_add_left 1 2)) (n + 1) sampleOutcome)]

def turnEvidence : EvidenceCommit :=
  ⟨tickName n, tickName n, "run", tickName n, n + 1, "scope", sampleManifest, "material"⟩

def turnAttempt : ProviderAttemptSnapshot :=
  ⟨n + 1, "run", tickName n, .succeeded, some sampleManifest⟩

def sampleTurns : Nat → List Turn × System
  | 0 => ([], freshSystem)
  | n + 1 =>
    let s := run step (sampleTurns n).2 (turnEvents n)
    let s := step (.perform (.commitEvidence (turnClaim n 3 (Nat.le_add_left 1 2)) (turnAttempt n)
      (turnEvidence n))) s
    let turn := turnAt sampleDigest (fun _ => "") (turnClaim n 4 (Nat.le_add_left 1 3))
      (turnEvidence n) s
    (turn.1 :: (sampleTurns n).1, turn.2)

theorem History.quietly (h : History digest tradingDate scope turns s) {events : List Event}
    (hquiet : ∀ event ∈ events, event.IsQuiet) :
    History digest tradingDate scope turns (run step s events) := by
  induction events generalizing s with
  | nil => exact h
  | cons event events ih =>
    exact ih (h.quiet event (hquiet event mem_cons_self))
      fun other hother => hquiet other (mem_cons_of_mem _ hother)

theorem sampleTurns_succ {n : Nat}
    (h : History sampleDigest (fun _ => "") "scope" (sampleTurns n).1 (sampleTurns n).2)
    (hcommit : let s := run step (sampleTurns n).2 (turnEvents n)
      (s.journal.commitEvidence s.now (turnClaim n 3 (Nat.le_add_left 1 2)) (turnAttempt n)
        (turnEvidence n)).isOk)
    (hlater : let j := (run step (sampleTurns n).2 (turnEvents n)).journal
      ∀ turn ∈ (sampleTurns n).1, ∀ m ∈ j.sequenceOf "run" turn.evidence.tickId,
        ∀ k ∈ j.sequenceOf "run" (tickName n), m < k)
    (hcurrent : let s := run step (sampleTurns n).2 (turnEvents n)
      Current (step (.perform (.commitEvidence (turnClaim n 3 (Nat.le_add_left 1 2)) (turnAttempt n)
        (turnEvidence n))) s) (turnClaim n 4 (Nat.le_add_left 1 3))) :
    History sampleDigest (fun _ => "") "scope" (sampleTurns (n + 1)).1 (sampleTurns (n + 1)).2 := by
  have hquiet : ∀ event ∈ turnEvents n, event.IsQuiet := by
    simp [turnEvents, Event.IsQuiet, Operation.IsQuiet]
  exact .turn (h.quietly hquiet) hcommit rfl (fun _ _ => rfl) hlater
    (fun _ (h : _ ∈ ([] : List Event)) => nomatch h) rfl
    hcurrent rfl

theorem sampleTurns_one :
    History sampleDigest (fun _ => "") "scope" (sampleTurns 1).1 (sampleTurns 1).2 :=
  sampleTurns_succ (.start ⟨"run", "scope", "provider", "research", 0, rfl⟩) (by decide)
    (by decide) (by unfold Current; decide)

theorem sampleTurns_two :
    History sampleDigest (fun _ => "") "scope" (sampleTurns 2).1 (sampleTurns 2).2 :=
  sampleTurns_succ sampleTurns_one (by decide) (by decide) (by unfold Current; decide)

theorem sampleTurns_three :
    History sampleDigest (fun _ => "") "scope" (sampleTurns 3).1 (sampleTurns 3).2 :=
  sampleTurns_succ sampleTurns_two (by decide +kernel) (by decide +kernel)
    (by unfold Current; decide +kernel)

/-- Two ticks with the same material are as they should be. -/
theorem history_lawful_iff_sample : Lawful "scope" (sampleTurns 2).1 (sampleTurns 2).2 :=
  (history_lawful_iff (fun _ _ _ _ _ _ hne => hne) sampleTurns_two).mpr trivial

/-- The decision of the third is rejected: it cites the second commit,
and its scope points at the first. -/
theorem third_alike_rejected :
    History sampleDigest (fun _ => "") "scope" (sampleTurns 3).1 (sampleTurns 3).2
      ∧ (sampleTurns 3).1.map (·.decisionType)
        = [.noMaterialChange, .noMaterialChange, .initialEvidence]
      ∧ (sampleTurns 3).1.map (·.accepted) = [false, true, true]
      ∧ ¬ Lawful "scope" (sampleTurns 3).1 (sampleTurns 3).2 := by
  have haccepted : (sampleTurns 3).1.map (·.accepted) = [false, true, true] := by
    decide +kernel
  refine ⟨sampleTurns_three, by decide +kernel, haccepted, fun hlawful => ?_⟩
  have hall : ∀ turn ∈ (sampleTurns 3).1.map (·.accepted), turn = true := by
    simpa using hlawful.accepted
  rw [haccepted] at hall
  simp at hall

end Sample

end MarketRegimeAlpha.Continuous
