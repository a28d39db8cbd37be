/-
A Historical Research run as a whole: any interleaving of drain loops
works its sessions off one after the other, and each as the kernel would.

# The invariant

`JournalInv` puts the rows in order. Whatever comes after a row that is
still open has not been touched, so the first open row is the only one
that can be claimed, and everything before it is over. Both operations
change that one row (`JournalInv.replace`). The status of the run is a
summary of its rows, computed again by each operation.

A claim that was handed out is backed by its attempt for ever
(`SystemInv.backed`), which is what refuses it once it is stale.
-/
import MarketRegimeAlpha.Historical.Proofs.Rows

namespace MarketRegimeAlpha.Historical

open Lib List

-- ==== the journal

/-- A row as it was inserted. -/
def Untouched (row : SessionRow) : Prop :=
  row = Journal.initialRow row.sessionOrdinal row.sessionJson

/-- What follows an open row is untouched. -/
def InTurn (rows : List SessionRow) : Prop :=
  rows.Pairwise fun a b => a.status.isOpen = true → Untouched b

/-- What the rows say of the status of their run. -/
structure Summarizes (rows : List SessionRow) (status : HistoricalRunStatus) : Prop where
  of_open : (∃ row ∈ rows, row.status.isOpen = true) → status = .pending ∨ status = .running
  of_ended : (∀ row ∈ rows, row.status.isOpen = false) →
    status = if ∃ row ∈ rows, row.status = .blocked then
      .completeWithBlocks else .complete

structure JournalInv (platform : Platform)
    (command : HistoricalResearchCommand) (j : Journal) : Prop where
  command_eq : j.command = command
  contract_eq : j.contractVersion = command.runtimeContractVersion
  dates_eq : j.sessions.map (·.tradingDate) = command.tradingSessions
  ids_nodup : (j.sessions.map (·.sessionId)).Nodup
  rows : ∀ row ∈ j.sessions, RowInv platform command row
  in_turn : InTurn j.sessions
  summary : Summarizes j.sessions j.status

section Rows

variable {rows earlier later : List SessionRow} {row row' : SessionRow} {j : Journal}
  {other : SessionRow}

theorem Untouched.pending (h : Untouched row) : row.status = .pending := by
  rw [h]
  rfl

theorem InTurn.ended_before (h : InTurn (earlier ++ row :: later)) (hrow : row.status ≠ .pending) :
    ∀ before ∈ earlier, before.status.isOpen = false := by
  intro before hbefore
  rw [← Bool.not_eq_true]
  intro hopen
  have hcross := (pairwise_append.mp h).2.2 before hbefore row mem_cons_self
  exact hrow (hcross hopen).pending

theorem InTurn.replace (h : InTurn (earlier ++ row :: later)) (hopen : row.status.isOpen = true)
    (hended : ∀ before ∈ earlier, before.status.isOpen = false) :
    InTurn (earlier ++ row' :: later) := by
  obtain ⟨hearlier, hlater, -⟩ := pairwise_append.mp h
  obtain ⟨huntouched, hrest⟩ := pairwise_cons.mp hlater
  apply pairwise_append.mpr
  refine ⟨hearlier, ?_, ?_⟩
  · exact pairwise_cons.mpr ⟨fun after hafter _ => huntouched after hafter hopen, hrest⟩
  · intro before hbefore after _ hbeforeopen
    rw [hended before hbefore] at hbeforeopen
    cases hbeforeopen

theorem mem_replace (h : other ∈ earlier ++ row :: later) (hne : other ≠ row) :
    other ∈ earlier ++ row' :: later := by
  rcases mem_append.mp h with h | h
  · exact mem_append_left _ h
  · rcases mem_cons.mp h with h | h
    · exact absurd h hne
    · exact mem_append_right _ (mem_cons_of_mem _ h)

theorem mem_of_mem_replace (row : SessionRow) (h : other ∈ earlier ++ row' :: later) :
    other = row' ∨ other ∈ earlier ++ row :: later := by
  rcases mem_append.mp h with h | h
  · exact .inr (mem_append_left _ h)
  · rcases mem_cons.mp h with h | h
    · exact .inl h
    · exact .inr (mem_append_right _ (mem_cons_of_mem _ h))

/-- `UPDATE ... WHERE session_id` changes the one row of the id. -/
theorem updateSession_eq {f : SessionRow → SessionRow}
    (hsessions : j.sessions = earlier ++ row :: later)
    (hids : (j.sessions.map (·.sessionId)).Nodup) :
    (j.updateSession row.sessionId f).sessions = earlier ++ f row :: later := by
  have hother : ∀ other ∈ earlier ++ later, other.sessionId ≠ row.sessionId := by
    rw [hsessions, map_append, map_cons] at hids
    have hperm := (@perm_middle _ row.sessionId
      (earlier.map (·.sessionId)) (later.map (·.sessionId))).nodup_iff.mp hids
    intro other hmem heq
    apply (nodup_cons.mp hperm).1
    rw [← heq, ← map_append]
    exact mem_map_of_mem hmem
  have hkeep : ∀ l : List SessionRow, (∀ other ∈ l, other.sessionId ≠ row.sessionId) →
      (l.map fun other => if other.sessionId = row.sessionId then f other
        else other) = l := by
    intro l hl
    calc l.map _ = l.map id := by
          apply map_congr_left
          intro other hmem
          exact if_neg (hl other hmem)
      _ = l := map_id l
  show List.map _ j.sessions = _
  rw [hsessions, map_append, map_cons, if_pos rfl,
    hkeep earlier fun other h => hother other (mem_append_left _ h),
    hkeep later fun other h => hother other (mem_append_right _ h)]

theorem session?_eq {sessionId : String} (h : j.session? sessionId = some row) :
    row.sessionId = sessionId ∧ ∃ earlier later, j.sessions = earlier ++ row :: later := by
  obtain ⟨hid, earlier, later, hsessions, -⟩ := find?_eq_some_iff_append.mp h
  exact ⟨of_decide_eq_true hid, earlier, later, hsessions⟩

end Rows

section Journal

variable {platform : Platform} {command : HistoricalResearchCommand} {j : Journal}
  {earlier later : List SessionRow} {row row' : SessionRow}

/-- No session has failed, and whether one is open or blocked decides the
status that `_finish_run` writes. -/
theorem summarizes_finishRun (hrows : ∀ row ∈ j.sessions, RowInv platform command row) :
    Summarizes (finishRun j).sessions (finishRun j).status := by
  have hfailed : j.sessions.countP (·.status = .failed) = 0 := by
    rw [countP_eq_zero]
    intro row hrow hfail
    rw [decide_eq_true_eq] at hfail
    obtain ⟨completed, -, -, hplaced⟩ := (hrows row hrow).placed
    rcases (hplaced.of_ended (by rw [hfail]; rfl)).1 with h | h
    · rw [h] at hfail
      cases hfail
    · rw [h] at hfail
      cases hfail
  constructor
  case of_open =>
    intro hopen
    have hactive : j.sessions.countP (·.status.isOpen) ≠ 0 := by
      rw [Ne, countP_eq_zero]
      intro hnone
      obtain ⟨row, hrow, hrowopen⟩ := hopen
      exact hnone row hrow hrowopen
    right
    exact if_pos hactive
  case of_ended =>
    intro hended
    have hactive : j.sessions.countP (·.status.isOpen) = 0 := by
      rw [countP_eq_zero]
      intro row hrow hopen
      rw [hended row hrow] at hopen
      cases hopen
    unfold finishRun
    dsimp only
    rw [if_neg (not_not.mpr hactive), if_neg (not_not.mpr hfailed)]
    by_cases hblocked : ∃ row ∈ j.sessions, row.status = .blocked
    · rw [if_pos hblocked, if_pos]
      rw [Ne, countP_eq_zero]
      intro hnone
      obtain ⟨row, hrow, hstatus⟩ := hblocked
      exact hnone row hrow (decide_eq_true hstatus)
    · rw [if_neg hblocked, if_neg]
      rw [not_not, countP_eq_zero]
      intro row hrow hstatus
      exact hblocked ⟨row, hrow, of_decide_eq_true hstatus⟩

variable {j' : Journal} {taken : List (String × Digest)} {claim : HistoricalStageClaim}
  {receipt : ResearchSessionStageReceipt} {now leaseDuration : Instant} {claimId : String}
  {claim? : Option HistoricalStageClaim}

variable (h : JournalInv platform command j)

include h in
/-- The first open row can be replaced by what an operation made of it. -/
theorem JournalInv.replace (hsessions : j.sessions = earlier ++ row :: later)
    (hopen : row.status.isOpen = true)
    (hended : ∀ before ∈ earlier, before.status.isOpen = false)
    (hrow : RowInv platform command row') (hid : row'.sessionId = row.sessionId)
    (hdate : row'.tradingDate = row.tradingDate) (hj : j'.sessions = earlier ++ row' :: later)
    (hcommand : j'.command = j.command) (hcontract : j'.contractVersion = j.contractVersion)
    (hsummary : Summarizes j'.sessions j'.status) :
    JournalInv platform command j' := by
  constructor
  case command_eq => exact hcommand.trans h.command_eq
  case contract_eq => exact hcontract.trans h.contract_eq
  case dates_eq =>
    rw [← h.dates_eq, hj, hsessions]
    simp [hdate]
  case ids_nodup =>
    have hids := h.ids_nodup
    rw [hsessions] at hids
    rw [hj]
    simpa [hid] using hids
  case rows =>
    intro other hother
    rw [hj] at hother
    rcases mem_of_mem_replace row hother with rfl | hother
    · exact hrow
    · exact h.rows other (hsessions ▸ hother)
  case in_turn =>
    rw [hj]
    have hturn := h.in_turn
    rw [hsessions] at hturn
    exact hturn.replace hopen hended
  case summary => exact hsummary

include h in
theorem JournalInv.terminal_iff :
    j.status.isTerminal = true ↔ ∀ row ∈ j.sessions, row.status.isOpen = false := by
  constructor
  · intro hterminal row hrow
    rw [← Bool.not_eq_true]
    intro hopen
    rcases h.summary.of_open ⟨row, hrow, hopen⟩ with hstatus | hstatus
    · rw [hstatus] at hterminal
      cases hterminal
    · rw [hstatus] at hterminal
      cases hterminal
  · intro hended
    rw [h.summary.of_ended hended]
    split
    · rfl
    · rfl

/-- What `claim_next` can do: hand out nothing and leave the run alone,
sum the run up again, or claim its first open row. -/
theorem claimNext_cases (h : claimNext platform j now leaseDuration claimId = .ok (claim?, j')) :
    (claim? = none ∧ (j' = j ∨ j.status.isTerminal = false
        ∧ (∀ row ∈ j.sessions, row.status.isOpen = false)
        ∧ j' = finishRun j))
    ∨ (j.status.isTerminal = false ∧ ∃ row earlier later stage pre,
      j.sessions = earlier ++ row :: later ∧ row.status.isOpen = true
        ∧ (∀ before ∈ earlier, before.status.isOpen = false)
        ∧ isHeld row now = false
        ∧ stageAt (row.nextStageOrdinal - 1) = .ok stage
        ∧ (∀ other ∈ j.sessions, ∀ attempt ∈ other.attempts, attempt.claimId ≠ claimId)
        ∧ loadReceipts platform row = .ok pre
        ∧ claim? = some {
            sessionId := row.sessionId
            sessionHash := row.sessionHash
            tradingDate := row.tradingDate
            stage := stage
            claimId := claimId
            attemptNumber := row.attempts.length + 1
            fencingToken := row.fencingToken + 1
            sessionVersion := row.version + 1
            leaseExpiresAt := now + leaseDuration
            completedPrefix := pre }
        ∧ j' = { j.updateSession row.sessionId fun _ =>
            claimedRow row stage claimId now (now + leaseDuration) with
              status := .running
              version := j.version + 1 }) := by
  unfold claimNext at h
  split at h
  · injection h with h
    injection h with hclaim hj
    exact .inl ⟨hclaim.symm, .inl hj.symm⟩
  · next hterminal =>
      rw [Bool.not_eq_true] at hterminal
      split at h
      · next hnone =>
          injection h with h
          injection h with hclaim hj
          refine .inl ⟨hclaim.symm, .inr ⟨hterminal, ?_, hj.symm⟩⟩
          intro row hrow
          have hnot := find?_eq_none.mp hnone row hrow
          rwa [Bool.not_eq_true] at hnot
      · next row hrow =>
          split at h
          · injection h with h
            injection h with hclaim hj
            exact .inl ⟨hclaim.symm, .inl hj.symm⟩
          · next hheld =>
              simp only [bind_ok, require_ok, pure_ok, ofRaised_ok] at h
              obtain ⟨stage, hstage, -, hfresh, pre, hpre, h⟩ := h
              injection h with hclaim hj
              obtain ⟨hopen, earlier, later, hsessions, hended⟩ :=
                find?_eq_some_iff_append.mp hrow
              refine .inr ⟨hterminal, row, earlier, later, stage, pre,
                hsessions, hopen, ?_, ?_, hstage, hfresh, hpre,
                hclaim.symm, hj.symm⟩
              · intro before hbefore
                have hnot := hended before hbefore
                rwa [Bool.not_eq_true'] at hnot
              · rwa [Bool.not_eq_true] at hheld

include h in
/-- `claim_next` keeps the journal as it should be, and every claim that
was handed out backed. -/
theorem JournalInv.claimNext
    (hclaim : claimNext platform j now leaseDuration claimId = .ok (claim?, j')) :
    JournalInv platform command j' ∧ (∀ claim, (∃ row ∈ j.sessions, ∃ attempt,
          Backs platform row claim attempt) ∨ claim? = some claim →
        ∃ row ∈ j'.sessions, ∃ attempt, Backs platform row claim attempt) := by
  rcases claimNext_cases hclaim with ⟨rfl, rfl | ⟨hterminal, hended, rfl⟩⟩
    | ⟨-, row, earlier, later, stage, pre, hsessions, hopen, hended, -, -, hfresh, hpre, hsome, rfl⟩
  · exact ⟨h, fun claim hclaim => hclaim.elim id fun h => nomatch h⟩
  · rw [h.terminal_iff.mpr hended] at hterminal
    cases hterminal
  · have hmem : row ∈ j.sessions := by
      rw [hsessions]
      exact mem_append_right _ mem_cons_self
    have hrow := h.rows row hmem
    have hnew := updateSession_eq (f := fun _ => claimedRow row stage claimId
      now (now + leaseDuration)) hsessions h.ids_nodup
    constructor
    · refine h.replace hsessions hopen hended (hrow.claimed hopen fun attempt hattempt =>
          hfresh row hmem attempt hattempt) rfl rfl hnew rfl rfl ?_
      constructor
      case of_open => exact fun _ => .inr rfl
      case of_ended =>
        intro hall
        have hlast := hall (claimedRow row stage claimId now (now + leaseDuration)) (by
            rw [hnew]
            exact mem_append_right _ mem_cons_self)
        cases hlast
    · intro claim hbacked
      have hclaimed : claimedRow row stage claimId now (now + leaseDuration)
          ∈ ({ j.updateSession row.sessionId fun _ => claimedRow row stage
              claimId now (now + leaseDuration) with
                status := .running
                version := j.version + 1 } : Journal).sessions := by
        rw [hnew]
        exact mem_append_right _ mem_cons_self
      rcases hbacked with ⟨other, hother, attempt, hbacks⟩ | hsame
      · by_cases heq : other = row
        · rw [heq] at hbacks
          exact ⟨_, hclaimed, hbacks.claimed hrow⟩
        · refine ⟨other, ?_, attempt, hbacks⟩
          rw [hnew]
          exact mem_replace (hsessions ▸ hother) heq
      · rw [hsome] at hsame
        obtain rfl := Option.some.inj hsame
        obtain ⟨completed, hreceipts, hprogress, hplaced⟩ := hrow.placed
        obtain ⟨hlength, hcontinues, -⟩ := hplaced.of_open hopen
        have hload := loadReceipts_eq hreceipts hprogress
        rw [hpre] at hload
        injection hload with hload
        exact ⟨_, hclaimed, backs_new hreceipts hprogress hlength hcontinues
          rfl rfl rfl rfl rfl rfl rfl hload⟩

/-- What `record_stage` does: record the receipt on the row that its claim
holds. -/
theorem recordStage_ok {now : Instant} (h : recordStage j taken now claim receipt = .ok j') :
    ∃ row earlier later, row.sessionId = claim.sessionId
      ∧ j.sessions = earlier ++ row :: later ∧ holdsClaim row claim now
      ∧ j' = finishRun (j.updateSession row.sessionId fun row =>
          recordedRow row claim.claimId receipt) := by
  unfold recordStage at h
  rw [bind_ok] at h
  obtain ⟨-, -, h⟩ := h
  split at h
  · cases h
  · next row hrow =>
      simp only [bind_ok, require_ok, pure_ok] at h
      obtain ⟨-, hholds, -, -, rfl⟩ := h
      obtain ⟨hid, earlier, later, hsessions⟩ := session?_eq hrow
      exact ⟨row, earlier, later, hid, hsessions, hholds, by rw [hid]⟩

include h in
/-- Recording the receipt of a claimed stage keeps the journal as it
should be, and every claim that was handed out backed. -/
theorem JournalInv.recordStage {now : Instant}
    (hbacked : ∃ row ∈ j.sessions, ∃ attempt, Backs platform row claim attempt)
    (hcompute : computeStage platform command claim = .ok receipt)
    (hrecord : recordStage j taken now claim receipt = .ok j') :
    JournalInv platform command j' ∧ ∀ other, (∃ row ∈ j.sessions, ∃ attempt,
          Backs platform row other attempt) →
        ∃ row ∈ j'.sessions, ∃ attempt,
          Backs platform row other attempt := by
  obtain ⟨row, earlier, later, hid, hsessions, hholds, rfl⟩ := recordStage_ok hrecord
  have hmem : row ∈ j.sessions := by
    rw [hsessions]
    exact mem_append_right _ mem_cons_self
  have hrow := h.rows row hmem
  obtain ⟨attempt, hbacks⟩ : ∃ attempt, Backs platform row claim attempt := by
    obtain ⟨other, hother, attempt, hbacks⟩ := hbacked
    have hsame : other = row := inj_on_of_nodup_map h.ids_nodup hother
      hmem (by rw [hbacks.session_eq, hid])
    exact ⟨attempt, hsame ▸ hbacks⟩
  have hrunning := hholds.1
  have hopen : row.status.isOpen = true := by
    rw [hrunning]
    rfl
  have hended : ∀ before ∈ earlier, before.status.isOpen = false := by
    have hturn := h.in_turn
    rw [hsessions] at hturn
    apply hturn.ended_before
    rw [hrunning]
    exact fun h => nomatch h
  have hrecorded := hrow.recorded hbacks hholds hcompute
  have hnew := updateSession_eq (f := fun row => recordedRow row
    claim.claimId receipt) hsessions h.ids_nodup
  have hrows : ∀ other ∈ (j.updateSession row.sessionId fun row =>
      recordedRow row claim.claimId receipt).sessions,
      RowInv platform command other := by
    intro other hother
    rw [hnew] at hother
    rcases mem_of_mem_replace row hother with rfl | hother
    · exact hrecorded
    · exact h.rows other (hsessions ▸ hother)
  constructor
  · exact h.replace hsessions hopen hended hrecorded rfl rfl hnew rfl rfl
      (summarizes_finishRun hrows)
  · rintro other ⟨holder, hholder, attempt', hother⟩
    have hsame : (finishRun (j.updateSession row.sessionId fun row =>
        recordedRow row claim.claimId receipt)).sessions
        = earlier ++ recordedRow row claim.claimId receipt :: later := hnew
    rw [hsame]
    by_cases heq : holder = row
    · rw [heq] at hother
      exact ⟨_, mem_append_right _ mem_cons_self, hbacks.recorded hrow hholds hother⟩
    · exact ⟨holder, mem_replace (hsessions ▸ hholder) heq, attempt', hother⟩

end Journal

end MarketRegimeAlpha.Historical
