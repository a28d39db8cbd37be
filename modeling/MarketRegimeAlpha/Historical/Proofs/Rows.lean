/-
One session row: what is always true of it, and that claiming it and
recording a receipt of it keep that true.

# The invariant

The receipts stored with a row are where the kernel has got to on its
request (`Progress`), and its status says what is left to do. Its
attempts are numbered from one and its fencing token is their number; an
attempt is active only while the row runs, and then it is the last one
and the lease is its own (`Placed`). A claim that was handed out stays
backed by its attempt (`Backs`): as long as that attempt is active, the
receipts are still the ones the claim was given.
-/
import MarketRegimeAlpha.Historical.Runner
import MarketRegimeAlpha.Historical.Proofs.Kernel

namespace MarketRegimeAlpha.Historical

open Lib List

-- ==== the attempts

/-- No attempt is active. -/
def Quiet (attempts : List AttemptRow) : Prop := ∀ attempt ∈ attempts, attempt.status ≠ .active

theorem map_settleAttempt {β : Type} (f : AttemptRow → β)
    (hf : ∀ attempt status, f { attempt with status := status } = f attempt) (claimId : String)
    (status : AttemptStatus) (attempts : List AttemptRow) :
    (settleAttempt claimId status attempts).map f = attempts.map f := by
  unfold settleAttempt
  rw [map_map]
  apply map_congr_left
  intro attempt _
  show f (if _ then _ else _) = f attempt
  split
  · exact hf attempt status
  · rfl

@[simp] theorem length_settleAttempt (claimId : String)
    (status : AttemptStatus) (attempts : List AttemptRow) :
    (settleAttempt claimId status attempts).length = attempts.length := by
  unfold settleAttempt
  rw [length_map]

theorem quiet_settleAttempt {claimId : String} {status : AttemptStatus} {earlier : List AttemptRow}
    {last : AttemptRow} (hearlier : Quiet earlier) (hlast : last.claimId = claimId)
    (hstatus : status ≠ .active) :
    Quiet (settleAttempt claimId status (earlier ++ [last])) := by
  intro attempt hattempt
  obtain ⟨before, hbefore, rfl⟩ := mem_map.mp hattempt
  split
  · exact hstatus
  · next hnot =>
      rcases mem_append.mp hbefore with hbefore | hbefore
      · exact hearlier before hbefore
      · rw [mem_singleton.mp hbefore] at hnot ⊢
        exact fun hactive => hnot ⟨hlast, hactive⟩

/-- The attempts of a row are numbered from one, and its token counts
them. -/
structure Numbered (row : SessionRow) : Prop where
  numbers_eq : row.attempts.map (·.attemptNumber) = List.range' 1 row.attempts.length
  tokens_eq : row.attempts.map (·.fencingToken) = List.range' 1 row.attempts.length
  token_eq : row.fencingToken = row.attempts.length
  claims_nodup : (row.attempts.map (·.claimId)).Nodup

-- ==== the row

/-- The last attempt is active under the lease, and no other is. -/
structure LeasedBy (row : SessionRow) (lease : StageLease)
    (earlier : List AttemptRow) (last : AttemptRow) : Prop where
  attempts_eq : row.attempts = earlier ++ [last]
  quiet : Quiet earlier
  active : last.status = .active
  claim_eq : last.claimId = lease.claimId
  expires_eq : last.leaseExpiresAt = lease.expiresAt

/-- What the status of a row says about the receipts it has. -/
inductive Placed (row : SessionRow) (completed : List ResearchSessionStageReceipt) : Prop
  | pending : row.status = .pending → row.lease = none → Quiet row.attempts → completed.length < 6 →
      Kernel.continues completed = true →
      row.nextStageOrdinal = completed.length + 1 → Placed row completed
  | running (lease : StageLease) (earlier : List AttemptRow)
      (last : AttemptRow) : row.status = .running →
      row.lease = some lease → LeasedBy row lease earlier last →
      completed.length < 6 → Kernel.continues completed = true →
      row.nextStageOrdinal = completed.length + 1 → Placed row completed
  | complete : row.status = .complete → row.lease = none →
      Quiet row.attempts → completed.length = 6 →
      Kernel.continues completed = true → Placed row completed
  | blocked : row.status = .blocked → row.lease = none →
      Quiet row.attempts → Kernel.continues completed = false →
      Placed row completed

structure RowInv (platform : Platform) (command : HistoricalResearchCommand)
    (row : SessionRow) : Prop where
  request_eq : command.sessionRequest platform row.tradingDate = .ok row.sessionJson
  id_eq : row.sessionId = row.sessionJson.sessionId
  hash_eq : row.sessionHash = row.sessionJson.sessionHash
  next_le : row.nextStageOrdinal ≤ 6
  numbered : Numbered row
  placed : ∃ completed, row.receipts = completed.map receiptRow
    ∧ Progress platform row.sessionJson completed ∧ Placed row completed

section Row

variable {platform : Platform} {command : HistoricalResearchCommand} {row : SessionRow}
  {completed : List ResearchSessionStageReceipt} {claim : HistoricalStageClaim}
  {attempt : AttemptRow} {now : Instant}

theorem restoreReceipt_receiptRow {receipt : ResearchSessionStageReceipt}
    (h : Formed platform.receiptHash receipt) :
    restoreReceipt platform (receiptRow receipt) = .ok receipt := by
  unfold restoreReceipt
  simp only [bind_ok, require_ok, pure_ok, ofRaised_ok]
  exact ⟨receipt, h.fromCanonicalDict_eq, (), rfl, rfl⟩

theorem loadReceipts_eq (hreceipts : row.receipts = completed.map receiptRow)
    (hprogress : Progress platform row.sessionJson completed) :
    loadReceipts platform row = .ok completed := by
  have hsorted : (completed.map receiptRow).Pairwise
      fun a b => a.stageOrdinal ≤ b.stageOrdinal := by
    rw [pairwise_map]
    have hstages : (completed.map (·.stage)).Pairwise fun a b => a.ordinal ≤ b.ordinal := by
      rw [hprogress.stages_eq]
      have hall : stages.Pairwise fun a b => a.ordinal ≤ b.ordinal := by decide
      exact hall.sublist (take_sublist _ _)
    have hordinals := pairwise_map.mp hstages
    exact hordinals
  have hsort : sortBy (·.stageOrdinal) row.receipts = completed.map receiptRow := by
    rw [hreceipts]
    exact hsorted.insertionSort_eq
  unfold loadReceipts
  rw [hsort, mapM_map]
  apply mapM_ok_self
  intro receipt hreceipt
  exact restoreReceipt_receiptRow (hprogress.valid.2 receipt hreceipt)

theorem Placed.of_open (h : Placed row completed) (hopen : row.status.isOpen = true) :
    completed.length < 6 ∧ Kernel.continues completed = true
      ∧ row.nextStageOrdinal = completed.length + 1 := by
  cases h with
  | pending _ _ _ hlength hcontinues hnext => exact ⟨hlength, hcontinues, hnext⟩
  | running _ _ _ _ _ _ hlength hcontinues hnext => exact ⟨hlength, hcontinues, hnext⟩
  | complete hstatus =>
    rw [hstatus] at hopen
    cases hopen
  | blocked hstatus =>
    rw [hstatus] at hopen
    cases hopen

theorem Placed.of_ended (h : Placed row completed) (hended : row.status.isOpen = false) :
    (row.status = .complete ∨ row.status = .blocked)
      ∧ (completed.length = 6 ∨ Kernel.continues completed = false) := by
  cases h with
  | pending hstatus =>
    rw [hstatus] at hended
    cases hended
  | running _ _ _ hstatus =>
    rw [hstatus] at hended
    cases hended
  | complete hstatus _ _ hlength => exact ⟨.inl hstatus, .inl hlength⟩
  | blocked hstatus _ _ hcontinues => exact ⟨.inr hstatus, .inr hcontinues⟩

theorem Quiet.filter_eq_nil {attempts : List AttemptRow} (h : Quiet attempts) :
    attempts.filter (·.status = .active) = [] := by
  rw [filter_eq_nil_iff]
  intro attempt hattempt
  rw [decide_eq_true_eq]
  exact h attempt hattempt

theorem Placed.one_active (h : Placed row completed) :
    (row.attempts.filter (·.status = .active)).length ≤ 1 := by
  cases h with
  | pending _ _ hquiet =>
    rw [hquiet.filter_eq_nil]
    exact Nat.zero_le _
  | running _ earlier last _ _ hleased =>
    rw [hleased.attempts_eq, filter_append, hleased.quiet.filter_eq_nil, nil_append]
    exact length_filter_le _ [last]
  | complete _ _ hquiet =>
    rw [hquiet.filter_eq_nil]
    exact Nat.zero_le _
  | blocked _ _ hquiet =>
    rw [hquiet.filter_eq_nil]
    exact Nat.zero_le _

theorem rowInv_initialRow {ordinal : Nat} {tradingDate : Day}
    {request : ResearchDecisionSessionRequest}
    (hrequest : command.sessionRequest platform tradingDate = .ok request)
    (hdate : request.tradingDate = tradingDate) :
    RowInv platform command (Journal.initialRow ordinal request) where
  request_eq := by
    show command.sessionRequest platform request.tradingDate = _
    rw [hdate]
    exact hrequest
  id_eq := rfl
  hash_eq := rfl
  next_le := by
    show 1 ≤ 6
    decide
  numbered := ⟨rfl, rfl, rfl, nodup_nil⟩
  placed := ⟨[], rfl, .nothing, .pending rfl rfl (fun _ h => nomatch h) (by decide) rfl rfl⟩

/-- A claim that was handed out on the row: its attempt is there, and as
long as it is active the receipts are those the claim was given. -/
structure Backs (platform : Platform) (row : SessionRow)
    (claim : HistoricalStageClaim) (attempt : AttemptRow) : Prop where
  session_eq : row.sessionId = claim.sessionId
  hash_eq : row.sessionHash = claim.sessionHash
  date_eq : row.tradingDate = claim.tradingDate
  mem : attempt ∈ row.attempts
  claim_eq : attempt.claimId = claim.claimId
  number_eq : attempt.attemptNumber = claim.attemptNumber
  token_eq : attempt.fencingToken = claim.fencingToken
  expires_eq : attempt.leaseExpiresAt = claim.leaseExpiresAt
  current : attempt.status = .active → row.receipts = claim.completedPrefix.map receiptRow
      ∧ Progress platform row.sessionJson claim.completedPrefix
      ∧ claim.completedPrefix.length < 6
      ∧ Kernel.continues claim.completedPrefix = true

/-- A row held under a claim that was handed out: its attempt is the last
one and active, and its lease has not run out. -/
theorem Backs.current_of_holds (hrow : RowInv platform command row)
    (hbacks : Backs platform row claim attempt)
    (hholds : holdsClaim row claim now) :
    attempt.status = .active ∧ now < claim.leaseExpiresAt ∧ ∃ earlier, LeasedBy row ⟨claim.claimId,
          (row.lease.map (·.acquiredAt)).getD 0, claim.leaseExpiresAt⟩
          earlier attempt := by
  obtain ⟨hrunning, -, -, lease, hlease, hclaim, hnow⟩ := hholds
  obtain ⟨completed, -, -, hplaced⟩ := hrow.placed
  cases hplaced with
  | pending hstatus =>
    rw [hstatus] at hrunning
    cases hrunning
  | complete hstatus =>
    rw [hstatus] at hrunning
    cases hrunning
  | blocked hstatus =>
    rw [hstatus] at hrunning
    cases hrunning
  | running lease' earlier last _ hlease' hleased =>
    obtain rfl : lease' = lease := Option.some.inj (hlease'.symm.trans hlease)
    have hlast : last ∈ row.attempts := by
      rw [hleased.attempts_eq]
      exact mem_append_right _ mem_cons_self
    -- the claim ids of a row are its own, so the attempt is the last one
    have hsame : attempt = last :=
      inj_on_of_nodup_map hrow.numbered.claims_nodup hbacks.mem hlast
        (by rw [hbacks.claim_eq, ← hclaim, hleased.claim_eq])
    have hexpires : lease'.expiresAt = claim.leaseExpiresAt := by
      rw [← hleased.expires_eq, ← hsame, hbacks.expires_eq]
    refine ⟨hsame ▸ hleased.active, hexpires ▸ hnow, earlier, ?_⟩
    exact ⟨hsame ▸ hleased.attempts_eq, hleased.quiet,
      hsame ▸ hleased.active, hbacks.claim_eq, hbacks.expires_eq⟩

/-- What makes a claim stale: its attempt was settled, or another was
started after it, or its lease has run out. -/
def StaleClaim (row : SessionRow) (claim : HistoricalStageClaim) (now : Instant) : Prop :=
  (∃ attempt ∈ row.attempts, attempt.claimId = claim.claimId ∧ attempt.status ≠ .active)
    ∨ (∃ attempt ∈ row.attempts, claim.attemptNumber < attempt.attemptNumber)
    ∨ claim.leaseExpiresAt ≤ now

theorem Backs.not_holds (hrow : RowInv platform command row)
    (hbacks : Backs platform row claim attempt)
    (hstale : StaleClaim row claim now) : ¬ holdsClaim row claim now := by
  intro hholds
  obtain ⟨hactive, hnow, earlier, hleased⟩ := hbacks.current_of_holds hrow hholds
  rcases hstale with ⟨other, hother, hclaim, hsettled⟩
    | ⟨other, hother, hlater⟩ | hexpired
  · have hsame : other = attempt :=
      inj_on_of_nodup_map hrow.numbered.claims_nodup hother hbacks.mem
        (by rw [hclaim, hbacks.claim_eq])
    exact hsettled (hsame ▸ hactive)
  · -- the last number is the number of attempts
    have hnumbers := hrow.numbered.numbers_eq
    have hbound : other.attemptNumber ≤ row.attempts.length := by
      have hmem := mem_map_of_mem (f := (·.attemptNumber)) hother
      rw [hnumbers, mem_range'_1] at hmem
      omega
    have hlast : attempt.attemptNumber = row.attempts.length := by
      rw [hleased.attempts_eq] at hnumbers
      rw [map_append, length_append, length_singleton,
        range'_concat] at hnumbers
      have htail := (append_inj' hnumbers rfl).2
      rw [hleased.attempts_eq, length_append, length_singleton]
      simp only [map_cons, map_nil, cons.injEq] at htail
      omega
    have hnumber := hbacks.number_eq
    omega
  · exact absurd hnow (not_lt.mpr hexpired)

end Row

-- ==== claiming the row

section Claim

variable {platform : Platform} {command : HistoricalResearchCommand} {row : SessionRow}
  {stage : ResearchSessionStage} {claimId : String} {now expiresAt : Instant}
  {claim : HistoricalStageClaim}

theorem map_expireLease {β : Type} (f : AttemptRow → β)
    (hf : ∀ attempt status, f { attempt with status := status } = f attempt) :
    (expireLease row).attempts.map f = row.attempts.map f := by
  unfold expireLease
  split
  · exact map_settleAttempt f hf _ _ _
  · rfl

variable (hrow : RowInv platform command row)

include hrow in
theorem quiet_expireLease : Quiet (expireLease row).attempts := by
  obtain ⟨completed, -, -, hplaced⟩ := hrow.placed
  unfold expireLease
  cases hplaced with
  | pending hstatus _ hquiet =>
    rw [hstatus]
    exact hquiet
  | running lease earlier last hstatus hlease hleased =>
    rw [hstatus, hlease]
    rw [hleased.attempts_eq]
    exact quiet_settleAttempt hleased.quiet hleased.claim_eq fun h => nomatch h
  | complete hstatus _ hquiet =>
    rw [hstatus]
    exact hquiet
  | blocked hstatus _ hquiet =>
    rw [hstatus]
    exact hquiet

include hrow in
/-- Claiming an open row keeps it as it should be. -/
theorem RowInv.claimed (hopen : row.status.isOpen = true)
    (hfresh : ∀ attempt ∈ row.attempts, attempt.claimId ≠ claimId) :
    RowInv platform command (claimedRow row stage claimId now expiresAt) := by
  obtain ⟨completed, hreceipts, hprogress, hplaced⟩ := hrow.placed
  obtain ⟨hlength, hcontinues, hnext⟩ := hplaced.of_open hopen
  have hcount : (expireLease row).attempts.length = row.attempts.length := by
    have hmap : (expireLease row).attempts.map (·.claimId)
        = row.attempts.map (·.claimId) := map_expireLease _ fun _ _ => rfl
    simpa using congrArg List.length hmap
  constructor
  case request_eq => exact hrow.request_eq
  case id_eq => exact hrow.id_eq
  case hash_eq => exact hrow.hash_eq
  case next_le => exact hrow.next_le
  case numbered =>
    constructor
    case numbers_eq =>
      show List.map _ ((expireLease row).attempts ++ [_]) = _
      rw [map_append, map_expireLease _ fun _ _ => rfl, hrow.numbered.numbers_eq]
      show _ = List.range' 1 ((expireLease row).attempts ++ [_]).length
      rw [length_append, length_singleton, hcount, range'_concat]
      simp [Nat.add_comm]
    case tokens_eq =>
      show List.map _ ((expireLease row).attempts ++ [_]) = _
      rw [map_append, map_expireLease _ fun _ _ => rfl, hrow.numbered.tokens_eq]
      show _ = List.range' 1 ((expireLease row).attempts ++ [_]).length
      rw [length_append, length_singleton, hcount, range'_concat]
      simp [hrow.numbered.token_eq, Nat.add_comm]
    case token_eq =>
      show row.fencingToken + 1 = ((expireLease row).attempts ++ [_]).length
      rw [length_append, length_singleton, hcount, hrow.numbered.token_eq]
    case claims_nodup =>
      show (List.map _ ((expireLease row).attempts ++ [_])).Nodup
      rw [map_append, map_expireLease _ fun _ _ => rfl]
      apply Nodup.append hrow.numbered.claims_nodup (nodup_singleton _)
      intro id hid hid'
      obtain ⟨attempt, hattempt, rfl⟩ := mem_map.mp hid
      exact hfresh attempt hattempt (mem_singleton.mp hid')
  case placed =>
    refine ⟨completed, hreceipts, hprogress, ?_⟩
    exact .running ⟨claimId, now, expiresAt⟩ (expireLease row).attempts _
      rfl rfl ⟨rfl, quiet_expireLease hrow, rfl, rfl, rfl⟩ hlength
      hcontinues hnext

include hrow in
/-- The claims that were handed out before stay backed: their attempts are
settled. -/
theorem Backs.claimed {attempt : AttemptRow} (hbacks : Backs platform row claim attempt) :
    ∃ attempt', Backs platform (claimedRow row stage claimId now expiresAt)
      claim attempt' := by
  have hmem := hbacks.mem
  have hkept : ∃ attempt' ∈ (expireLease row).attempts, attempt'.claimId = attempt.claimId
        ∧ attempt'.attemptNumber = attempt.attemptNumber
        ∧ attempt'.fencingToken = attempt.fencingToken
        ∧ attempt'.leaseExpiresAt = attempt.leaseExpiresAt := by
    have hmap := @map_expireLease row _ (fun a =>
      (a.claimId, a.attemptNumber, a.fencingToken, a.leaseExpiresAt))
      fun _ _ => rfl
    have hin := mem_map_of_mem (f := fun a : AttemptRow =>
      (a.claimId, a.attemptNumber, a.fencingToken, a.leaseExpiresAt)) hmem
    rw [← hmap] at hin
    obtain ⟨attempt', hattempt', heq⟩ := mem_map.mp hin
    simp only [Prod.mk.injEq] at heq
    exact ⟨attempt', hattempt', heq⟩
  obtain ⟨attempt', hattempt', hclaim, hnumber, htoken, hexpires⟩ := hkept
  refine ⟨attempt', ?_⟩
  constructor
  case session_eq => exact hbacks.session_eq
  case hash_eq => exact hbacks.hash_eq
  case date_eq => exact hbacks.date_eq
  case mem => exact mem_append_left _ hattempt'
  case claim_eq => exact hclaim.trans hbacks.claim_eq
  case number_eq => exact hnumber.trans hbacks.number_eq
  case token_eq => exact htoken.trans hbacks.token_eq
  case expires_eq => exact hexpires.trans hbacks.expires_eq
  case current =>
    intro hactive
    exact absurd hactive (quiet_expireLease hrow attempt' hattempt')

theorem backs_new {completed : List ResearchSessionStageReceipt}
    (hreceipts : row.receipts = completed.map receiptRow)
    (hprogress : Progress platform row.sessionJson completed) (hlength : completed.length < 6)
    (hcontinues : Kernel.continues completed = true) (hsession : claim.sessionId = row.sessionId)
    (hhash : claim.sessionHash = row.sessionHash) (hdate : claim.tradingDate = row.tradingDate)
    (hclaim : claim.claimId = claimId) (hnumber : claim.attemptNumber = row.attempts.length + 1)
    (htoken : claim.fencingToken = row.fencingToken + 1)
    (hexpires : claim.leaseExpiresAt = expiresAt) (hcompleted : claim.completedPrefix = completed) :
    ∃ attempt, Backs platform (claimedRow row stage claimId now expiresAt)
      claim attempt := by
  refine ⟨{
    attemptNumber := row.attempts.length + 1
    claimId := claimId
    stage := stage
    fencingToken := row.fencingToken + 1
    status := .active
    leaseExpiresAt := expiresAt }, ?_⟩
  constructor
  case session_eq => exact hsession.symm
  case hash_eq => exact hhash.symm
  case date_eq => exact hdate.symm
  case mem => exact mem_append_right _ mem_cons_self
  case claim_eq => exact hclaim.symm
  case number_eq => exact hnumber.symm
  case token_eq => exact htoken.symm
  case expires_eq => exact hexpires.symm
  case current =>
    intro _
    rw [hcompleted]
    exact ⟨hreceipts, hprogress, hlength, hcontinues⟩

end Claim

-- ==== recording on the row

section Record

variable {platform : Platform} {command : HistoricalResearchCommand} {row : SessionRow}
  {claim : HistoricalStageClaim} {attempt : AttemptRow} {receipt : ResearchSessionStageReceipt}
  {now : Instant}

theorem statusAfter_next_le (receipt : ResearchSessionStageReceipt) :
    (statusAfter receipt).2 ≤ 6 := by
  unfold statusAfter
  split
  · next h => exact ordinal_lt h.2
  · split
    · exact ordinal_le receipt.stage
    · exact ordinal_le receipt.stage

variable (hrow : RowInv platform command row)

include hrow in
/-- The receipt of the claimed stage is the kernel's next turn on the
row's request. -/
theorem computeStage_ok (hdate : row.tradingDate = claim.tradingDate)
    (hlength : claim.completedPrefix.length < 6)
    (hcontinues : Kernel.continues claim.completedPrefix = true)
    (h : computeStage platform command claim = .ok receipt) :
    Kernel.runNext platform row.sessionJson claim.completedPrefix
        = .ok (claim.completedPrefix ++ [receipt])
      ∧ ∃ stage, stages[claim.completedPrefix.length]? = some stage ∧ receipt.stage = stage := by
  unfold computeStage at h
  rw [← hdate, hrow.request_eq, ok_bind] at h
  simp only [bind_ok, require_ok] at h
  obtain ⟨computed, hturn, -, -, hlast⟩ := h
  obtain ⟨receipt', stage, rfl, hstage, -, hbinds⟩ := runNext_ok hlength hcontinues hturn
  rw [getLast?_concat, pure_ok] at hlast
  rw [← hlast]
  exact ⟨hturn, stage, hstage, hbinds.stage_eq⟩

include hrow in
/-- Recording the next receipt under a claim that holds the row keeps it
as it should be. -/
theorem RowInv.recorded (hbacks : Backs platform row claim attempt)
    (hholds : holdsClaim row claim now)
    (hcompute : computeStage platform command claim = .ok receipt) :
    RowInv platform command (recordedRow row claim.claimId receipt) := by
  obtain ⟨hactive, -, earlier, hleased⟩ := hbacks.current_of_holds hrow hholds
  obtain ⟨hreceipts, hprogress, hlength, hcontinues⟩ := hbacks.current hactive
  obtain ⟨hturn, stage, hstage, hstageeq⟩ :=
    computeStage_ok hrow hbacks.date_eq hlength hcontinues hcompute
  have hordinal := ordinal_of_stage hstage
  rw [← hstageeq] at hordinal
  have hquiet : Quiet (settleAttempt claim.claimId .completed row.attempts) := by
    rw [hleased.attempts_eq]
    exact quiet_settleAttempt hleased.quiet hleased.claim_eq fun h => nomatch h
  constructor
  case request_eq => exact hrow.request_eq
  case id_eq => exact hrow.id_eq
  case hash_eq => exact hrow.hash_eq
  case next_le => exact statusAfter_next_le receipt
  case numbered =>
    constructor
    case numbers_eq =>
      show List.map _ (settleAttempt _ _ row.attempts)
        = List.range' 1 (settleAttempt _ _ row.attempts).length
      rw [map_settleAttempt _ fun _ _ => rfl, length_settleAttempt]
      exact hrow.numbered.numbers_eq
    case tokens_eq =>
      show List.map _ (settleAttempt _ _ row.attempts)
        = List.range' 1 (settleAttempt _ _ row.attempts).length
      rw [map_settleAttempt _ fun _ _ => rfl, length_settleAttempt]
      exact hrow.numbered.tokens_eq
    case token_eq =>
      show row.fencingToken = (settleAttempt _ _ row.attempts).length
      rw [length_settleAttempt]
      exact hrow.numbered.token_eq
    case claims_nodup =>
      show (List.map _ (settleAttempt _ _ row.attempts)).Nodup
      rw [map_settleAttempt _ fun _ _ => rfl]
      exact hrow.numbered.claims_nodup
  case placed =>
    refine ⟨claim.completedPrefix ++ [receipt], ?_, hprogress.turn hlength hcontinues hturn, ?_⟩
    · show row.receipts ++ [receiptRow receipt] = _
      rw [hreceipts, map_append]
      rfl
    · have hlast : Kernel.continues (claim.completedPrefix ++ [receipt])
          = decide (receipt.status = .complete) := by
        unfold Kernel.continues
        rw [getLast?_concat]
      by_cases hcomplete : receipt.status = .complete
      · by_cases hperformance : receipt.stage = .performance
        · apply Placed.complete
          · show (statusAfter receipt).1 = _
            unfold statusAfter
            rw [if_neg (fun h => h.2 hperformance), if_pos hcomplete]
          · rfl
          · exact hquiet
          · rw [hperformance] at hordinal
            rw [length_append, length_singleton, ← hordinal]
            decide
          · rw [hlast, decide_eq_true_eq]
            exact hcomplete
        · have hafter : statusAfter receipt = (.pending, receipt.stage.ordinal + 1) := by
            unfold statusAfter
            rw [if_pos ⟨hcomplete, hperformance⟩]
          apply Placed.pending
          · show (statusAfter receipt).1 = _
            rw [hafter]
          · rfl
          · exact hquiet
          · -- only the last stage has the last ordinal
            have hbound := ordinal_lt hperformance
            rw [length_append, length_singleton]
            omega
          · rw [hlast, decide_eq_true_eq]
            exact hcomplete
          · show (statusAfter receipt).2 = _
            rw [hafter, length_append, length_singleton, ← hordinal]
      · apply Placed.blocked
        · show (statusAfter receipt).1 = _
          unfold statusAfter
          rw [if_neg (fun h => hcomplete h.1), if_neg hcomplete]
        · rfl
        · exact hquiet
        · rw [hlast, decide_eq_false_iff_not]
          exact hcomplete

include hrow in
/-- Every claim that was handed out stays backed when a receipt is
recorded: the active attempt is settled. -/
theorem Backs.recorded {other : HistoricalStageClaim} {attempt' : AttemptRow}
    (hbacks : Backs platform row claim attempt)
    (hholds : holdsClaim row claim now) (hother : Backs platform row other attempt') :
    ∃ attempt'', Backs platform (recordedRow row claim.claimId receipt)
      other attempt'' := by
  obtain ⟨-, -, earlier, hleased⟩ := hbacks.current_of_holds hrow hholds
  have hquiet : Quiet (settleAttempt claim.claimId .completed row.attempts) := by
    rw [hleased.attempts_eq]
    exact quiet_settleAttempt hleased.quiet hleased.claim_eq fun h => nomatch h
  have hin := mem_map_of_mem (f := fun a : AttemptRow =>
    (a.claimId, a.attemptNumber, a.fencingToken, a.leaseExpiresAt))
    hother.mem
  rw [← map_settleAttempt (fun a : AttemptRow =>
    (a.claimId, a.attemptNumber, a.fencingToken, a.leaseExpiresAt))
    (fun _ _ => rfl) claim.claimId .completed] at hin
  obtain ⟨attempt'', hattempt'', heq⟩ := mem_map.mp hin
  simp only [Prod.mk.injEq] at heq
  obtain ⟨hclaim, hnumber, htoken, hexpires⟩ := heq
  refine ⟨attempt'', ?_⟩
  constructor
  case session_eq => exact hother.session_eq
  case hash_eq => exact hother.hash_eq
  case date_eq => exact hother.date_eq
  case mem => exact hattempt''
  case claim_eq => exact hclaim.trans hother.claim_eq
  case number_eq => exact hnumber.trans hother.number_eq
  case token_eq => exact htoken.trans hother.token_eq
  case expires_eq => exact hexpires.trans hother.expires_eq
  case current =>
    intro hactive
    exact absurd hactive (hquiet attempt'' hattempt'')

end Record

end MarketRegimeAlpha.Historical
