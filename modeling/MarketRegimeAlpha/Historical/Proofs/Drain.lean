/-
Every interleaving of drain loops on one run, whichever of them are
dropped: the run is worked off in turn, and each session as the kernel
would.

# The parts

`systemInv_of_reached` carries the invariant of the journal through the
events; `drained` reads it off as what a reader of the run sees:
`get_run` restores every session with the receipts the kernel would have
made so far (`FollowsKernel`), a stale claim is refused, and a run that
is over stays as it is and replays without a mismatch.
-/
import MarketRegimeAlpha.Historical.Proofs.Serial

namespace MarketRegimeAlpha.Historical

open Lib List

section Drain

variable {platform : Platform} {command : HistoricalResearchCommand} {j : Journal} {s : System}

-- ==== the run created

variable {hash : SessionValues → Digest}

/-- A request that is constructed is the one given, and its configurations
are sorted. -/
theorem constructRequest_ok {request request' : ResearchDecisionSessionRequest}
    (h : ResearchDecisionSessionRequest.construct hash request = .ok request') :
    request' = request ∧ request.configurationReferences
      = sortedReferences request.configurationReferences := by
  unfold ResearchDecisionSessionRequest.construct at h
  simp only [bind_ok, require_ok, pure_ok] at h
  obtain ⟨-, -, -, -, -, -, -, hsorted, -, -, -, -, -, -, -, -, -, -, heq⟩ := h
  exact ⟨heq.symm, hsorted⟩

variable {request : ResearchDecisionSessionRequest} {claim : HistoricalStageClaim} {i : Nat}
  {worker : Worker} {row : SessionRow}

theorem fromCanonicalDict_request
    (h : ResearchDecisionSessionRequest.construct hash request = .ok request) :
    ResearchDecisionSessionRequest.fromCanonicalDict hash request = .ok request := by
  unfold ResearchDecisionSessionRequest.fromCanonicalDict
  rw [← (constructRequest_ok h).2]
  exact h

/-- A request that is created is for its date, and its own checks accept
it. -/
theorem createRequest_ok {values : SessionValues}
    (h : ResearchDecisionSessionRequest.create hash values = .ok request) :
    request.tradingDate = values.tradingDate
      ∧ ResearchDecisionSessionRequest.construct hash request = .ok request := by
  have heq := (constructRequest_ok h).1
  constructor
  · rw [heq]
  · calc ResearchDecisionSessionRequest.construct hash request
        = ResearchDecisionSessionRequest.create hash values := by
          rw [heq]
          rfl
      _ = .ok request := h

theorem sessionRequest_ok {tradingDate : Day}
    (h : command.sessionRequest platform tradingDate = .ok request) :
    request.tradingDate = tradingDate ∧ ResearchDecisionSessionRequest.fromCanonicalDict
        platform.sessionHash request = .ok request := by
  unfold HistoricalResearchCommand.sessionRequest at h
  rw [bind_ok] at h
  obtain ⟨-, -, hcreate⟩ := h
  obtain ⟨hdate, hconstruct⟩ := createRequest_ok hcreate
  exact ⟨hdate, fromCanonicalDict_request hconstruct⟩

theorem map_initialRows {β : Type} (f : SessionRow → β) (g : ResearchDecisionSessionRequest → β)
    (hf : ∀ ordinal request, f (Journal.initialRow ordinal request) = g request)
    (requests : List ResearchDecisionSessionRequest) :
    (requests.zipIdx.map fun (request, index) =>
      Journal.initialRow (index + 1) request).map f = requests.map g := by
  rw [map_map, ← zipIdx_map_fst 0 requests, map_map, zipIdx_map_fst]
  apply map_congr_left
  intro pair _
  exact hf (pair.2 + 1) pair.1

/-- A run that was just created is as it should be. -/
theorem journalInv_createOrGet (h : createOrGet platform command = .ok j) :
    JournalInv platform command j := by
  unfold createOrGet at h
  simp only [bind_ok, require_ok, pure_ok, ofRaised_ok] at h
  obtain ⟨requests, hrequests, -, hnodup, rfl⟩ := h
  have hdates : requests.map (·.tradingDate) = command.tradingSessions := by
    rw [map_mapM_ok (k := id) (fun _ _ hok => (sessionRequest_ok hok).1) hrequests, map_id]
  have hinitial : ∀ row ∈ requests.zipIdx.map (fun (request, index) =>
      Journal.initialRow (index + 1) request), ∃ request ∈ requests,
        ∃ ordinal, row = Journal.initialRow ordinal request := by
    intro row hrow
    obtain ⟨⟨request, index⟩, hmem, rfl⟩ := mem_map.mp hrow
    exact ⟨request, fst_mem_of_mem_zipIdx hmem, index + 1, rfl⟩
  constructor
  case command_eq => rfl
  case contract_eq => rfl
  case dates_eq =>
    rw [← hdates]
    exact map_initialRows _ _ (fun _ _ => rfl) requests
  case ids_nodup =>
    rw [map_initialRows _ _ (fun _ _ => rfl) requests]
    exact hnodup
  case rows =>
    intro row hrow
    obtain ⟨request, hrequest, ordinal, rfl⟩ := hinitial row hrow
    obtain ⟨tradingDate, -, hok⟩ := mem_mapM_ok hrequests request hrequest
    exact rowInv_initialRow hok (sessionRequest_ok hok).1
  case in_turn =>
    apply pairwise_of_forall_mem_list
    intro row _ row' hrow' _
    obtain ⟨request, -, ordinal, rfl⟩ := hinitial row' hrow'
    rfl
  case summary =>
    constructor
    case of_open => exact fun _ => .inl rfl
    case of_ended =>
      intro hended
      obtain ⟨tradingDate, hdate⟩ := exists_mem_of_ne_nil _ command.sessions_nonempty
      obtain ⟨request, hrequest, -⟩ := mapM_ok_mem hrequests tradingDate hdate
      obtain ⟨index, hindex, hget⟩ := getElem_of_mem hrequest
      have hrow : Journal.initialRow (index + 1) request
          ∈ requests.zipIdx.map fun (request, index) =>
            Journal.initialRow (index + 1) request :=
        mem_map.mpr ⟨(request, index), mk_mem_zipIdx_iff_getElem?.mpr
            (List.getElem?_eq_some_iff.mpr ⟨hindex, hget⟩), rfl⟩
      cases hended _ hrow

-- ==== the run read back

/-- A session as it is read back is where the kernel has got to on its
request. -/
structure FollowsKernel (platform : Platform) (command : HistoricalResearchCommand)
    (session : HistoricalSessionSnapshot) : Prop where
  request_eq : command.sessionRequest platform session.request.tradingDate = .ok session.request
  run_on : Kernel.run platform session.request session.receipts
    = Kernel.run platform session.request []
  is_prefix : ∀ result, Kernel.run platform session.request [] = .ok result →
    session.receipts <+: result
  next_stage : session.status.isOpen = true →
    stages[session.receipts.length]? = some session.nextStage
  run_of_ended : session.status.isOpen = false →
    Kernel.run platform session.request [] = .ok session.receipts

/-- A row is restored, as what the kernel would have made of its request
so far. -/
theorem snapshotSession_ok (hrow : RowInv platform command row) :
    ∃ session, snapshotSession platform row = .ok session ∧ session.status = row.status
      ∧ FollowsKernel platform command session := by
  obtain ⟨completed, hreceipts, hprogress, hplaced⟩ := hrow.placed
  obtain ⟨hdate, hread⟩ := sessionRequest_ok hrow.request_eq
  have hlt : row.nextStageOrdinal - 1 < stages.length := by
    have hle := hrow.next_le
    rw [length_stages]
    omega
  have hstage : stageAt (row.nextStageOrdinal - 1) = .ok stages[row.nextStageOrdinal - 1] := by
    unfold stageAt
    rw [getElem?_eq_getElem hlt]
  refine ⟨{
    request := row.sessionJson
    ordinal := row.sessionOrdinal
    status := row.status
    nextStage := stages[row.nextStageOrdinal - 1]
    version := row.version
    fencingToken := row.fencingToken
    receipts := completed }, ?_, rfl, ?_⟩
  · unfold snapshotSession restoreSession
    simp only [bind_ok, require_ok, pure_ok, ofRaised_ok]
    exact ⟨completed, loadReceipts_eq hreceipts hprogress, row.sessionJson,
      hread, (), ⟨hrow.hash_eq, hrow.id_eq.symm⟩, (), hprogress.stages_eq,
      _, hstage, rfl⟩
  · constructor
    case request_eq =>
      rw [hdate]
      exact hrow.request_eq
    case run_on => exact hprogress.run_eq
    case is_prefix => exact fun result hrun => hprogress.prefix_run hrun
    case next_stage =>
      intro hopen
      obtain ⟨-, -, hnext⟩ := hplaced.of_open hopen
      have hlength : row.nextStageOrdinal - 1 = completed.length := by omega
      rw [← hlength, getElem?_eq_getElem hlt]
    case run_of_ended =>
      intro hended
      exact hprogress.run_of_ended (hplaced.of_ended hended).2

variable (h : JournalInv platform command j)

include h in
/-- `get_run` never raises: every row is restored. -/
theorem getRun_ok : ∃ snapshot, getRun platform j = .ok snapshot ∧ snapshot.status = j.status
      ∧ snapshot.command = command
      ∧ snapshot.runtimeContractVersion = command.runtimeContractVersion
      ∧ snapshot.sessions.map (·.status) = j.sessions.map (·.status)
      ∧ ∀ session ∈ snapshot.sessions,
        FollowsKernel platform command session := by
  obtain ⟨sessions, hsessions, hall⟩ := mapM_ok_forall₂ (f := snapshotSession platform)
    (P := fun row session => session.status = row.status
      ∧ FollowsKernel platform command session) fun row hrow =>
      snapshotSession_ok (h.rows row hrow)
  have hlength : sessions.length = j.command.tradingSessions.length := by
    rw [← hall.length_eq, h.command_eq, ← h.dates_eq, length_map]
  refine ⟨{
    command := j.command
    runtimeContractVersion := j.contractVersion
    status := j.status
    version := j.version
    sessions := sessions }, ?_, rfl, h.command_eq, h.contract_eq, ?_, ?_⟩
  · unfold getRun
    simp only [bind_ok, require_ok, pure_ok]
    exact ⟨(), by rw [h.command_eq]; exact h.contract_eq, sessions, hsessions, (), hlength, rfl⟩
  · have hstatus : ∀ {rows : List SessionRow} {sessions : List HistoricalSessionSnapshot},
        List.Forall₂ (fun row session => session.status = row.status
          ∧ FollowsKernel platform command session) rows sessions →
        sessions.map (·.status) = rows.map (·.status) := by
      intro rows sessions hforall
      induction hforall with
      | nil => rfl
      | cons hpair _ ih => rw [map_cons, map_cons, ih, hpair.1]
    exact hstatus hall
  · intro session hsession
    obtain ⟨row, -, -, hfollows⟩ := forall₂_right hall hsession
    exact hfollows

-- ==== every event

/-- What is always true of a run and its workers. -/
structure SystemInv (platform : Platform)
    (command : HistoricalResearchCommand) (s : System) : Prop where
  journal : JournalInv platform command s.journal
  backed : ∀ claim ∈ s.handed, ∃ row ∈ s.journal.sessions, ∃ attempt,
    Backs platform row claim attempt
  held : ∀ worker ∈ s.workers, ∀ committed claim,
    worker.place = .holding committed claim → claim ∈ s.handed

theorem SystemInv.move (h : SystemInv platform command s) {place : Drain} {j' : Journal}
    (hplace : ∀ committed claim, place ≠ .holding committed claim)
    (hj : JournalInv platform command j')
    (hbacked : ∀ claim, (∃ row ∈ s.journal.sessions, ∃ attempt, Backs platform row claim attempt) →
      ∃ row ∈ j'.sessions, ∃ attempt, Backs platform row claim attempt) :
    SystemInv platform command { s with
      journal := j'
      workers := s.workers.set i { worker with place := place } } where
  journal := hj
  backed := fun claim hclaim => hbacked claim (h.backed claim hclaim)
  held := by
    intro other hother committed claim hholding
    rcases mem_or_eq_of_mem_set hother with hother | rfl
    · exact h.held other hother committed claim hholding
    · exact absurd hholding (hplace committed claim)

theorem drainStart_ne_holding (committed : Nat) (claim : HistoricalStageClaim) :
    drainStart platform j ≠ .holding committed claim := by
  unfold drainStart
  split
  · exact fun h => nomatch h
  · split
    · exact fun h => nomatch h
    · split
      · exact fun h => nomatch h
      · exact fun h => nomatch h

/-- The next operation of a worker. -/
theorem SystemInv.actWorker (h : SystemInv platform command s)
    (hworker : worker ∈ s.workers) (claimId : String) :
    SystemInv platform command (Historical.actWorker platform s i worker claimId) := by
  have hstay : ∀ place : Drain, (∀ committed claim, place ≠ .holding committed claim) →
      SystemInv platform command { s with
        workers := s.workers.set i { worker with place := place } } :=
    fun place hplace => h.move hplace h.journal fun _ hbacked => hbacked
  unfold Historical.actWorker
  cases hplace : worker.place with
  | starting => exact hstay _ drainStart_ne_holding
  | claiming committed =>
    dsimp only
    split
    · split
      · exact hstay _ fun _ _ h => by cases h
      · next j' hclaim =>
          obtain ⟨hj, hbacked⟩ := h.journal.claimNext hclaim
          exact h.move (fun _ _ h => by cases h) hj fun claim hold => hbacked claim (.inl hold)
      · next claim j' hclaim =>
          obtain ⟨hj, hbacked⟩ := h.journal.claimNext hclaim
          constructor
          case journal => exact hj
          case backed =>
            intro other hother
            rcases mem_cons.mp hother with rfl | hother
            · exact hbacked _ (.inr rfl)
            · exact hbacked _ (.inl (h.backed _ hother))
          case held =>
            intro other hother committed' claim' hholding
            rcases mem_or_eq_of_mem_set hother with hother | rfl
            · exact mem_cons_of_mem _ (h.held other hother committed' claim' hholding)
            · injection hholding with _ hsame
              rw [← hsame]
              exact mem_cons_self
    · exact hstay _ fun _ _ h => by cases h
  | holding committed claim =>
    dsimp only
    split
    · exact hstay _ fun _ _ h => by cases h
    · next j' hcommit =>
        unfold commitStage at hcommit
        simp only [bind_ok, ofRaised_ok] at hcommit
        obtain ⟨receipt, hcompute, hrecord⟩ := hcommit
        rw [h.journal.command_eq] at hcompute
        obtain ⟨hj, hbacked⟩ := h.journal.recordStage
          (h.backed claim (h.held worker hworker committed claim hplace))
          hcompute hrecord
        exact h.move (fun _ _ h => by cases h) hj hbacked
  | confirming committed sessionId =>
    dsimp only
    split
    · exact hstay _ fun _ _ h => by cases h
    · exact hstay _ fun _ _ h => by cases h
  | finishing =>
    dsimp only
    split
    · exact hstay _ fun _ _ h => by cases h
    · exact hstay _ fun _ _ h => by cases h
  | returned snapshot => exact h
  | failed e => exact h

theorem SystemInv.next (h : SystemInv platform command s) (e : RunEvent) :
    SystemInv platform command (System.next platform e s) := by
  cases e with
  | start worker =>
    refine ⟨h.journal, h.backed, ?_⟩
    intro other hother committed claim hholding
    rcases mem_append.mp hother with hother | hother
    · exact h.held other hother committed claim hholding
    · rw [mem_singleton.mp hother] at hholding
      cases hholding
  | act i claimId =>
    unfold System.next
    dsimp only
    split
    · exact h
    · next worker hworker => exact h.actWorker (mem_of_getElem? hworker) claimId
  | crash i =>
    exact ⟨h.journal, h.backed, fun worker hworker =>
      h.held worker (mem_of_mem_eraseIdx hworker)⟩
  | tick elapsed => exact ⟨h.journal, h.backed, h.held⟩
  | recordedElsewhere receiptId receiptHash => exact ⟨h.journal, h.backed, h.held⟩

theorem systemInv_of_reached (h : Reached platform command s) :
    SystemInv platform command s := by
  apply h.inv
  · rintro s ⟨hcreated, hworkers, hhanded⟩
    refine ⟨journalInv_createOrGet hcreated, ?_, ?_⟩
    · rw [hhanded]
      intro claim hclaim
      cases hclaim
    · rw [hworkers]
      intro worker hworker
      cases hworker
  · intro s e hs _
    exact hs.next e

-- ==== what a reader can see

theorem recordStage_refused {taken : List (String × Digest)} {now : Instant}
    (hrefused : ∀ row ∈ j.sessions, row.sessionId = claim.sessionId → ¬ holdsClaim row claim now)
    (receipt : ResearchSessionStageReceipt) :
    ∃ e, recordStage j taken now claim receipt = .error e := by
  cases hrecord : recordStage j taken now claim receipt with
  | error e => exact ⟨e, rfl⟩
  | ok j' =>
    obtain ⟨row, earlier, later, hid, hsessions, hholds, -⟩ := recordStage_ok hrecord
    refine absurd hholds (hrefused row ?_ hid)
    rw [hsessions]
    exact mem_append_right _ mem_cons_self

theorem commitStage_refused (hrefused : ∀ receipt, ∃ e, recordStage s.journal s.otherReceipts s.now
      claim receipt = .error e) :
    ∃ e, commitStage platform s claim = .error e := by
  cases hcommit : commitStage platform s claim with
  | error e => exact ⟨e, rfl⟩
  | ok j' =>
    unfold commitStage at hcommit
    simp only [bind_ok, ofRaised_ok] at hcommit
    obtain ⟨receipt, -, hrecord⟩ := hcommit
    obtain ⟨e, hrefuse⟩ := hrefused receipt
    rw [hrefuse] at hrecord
    cases hrecord

/-- In a run that is over, no operation changes anything. -/
theorem JournalInv.terminal_stays (h : JournalInv platform command s.journal)
    (hterminal : s.journal.status.isTerminal = true) (e : RunEvent) :
    (System.next platform e s).journal = s.journal := by
  have hended := h.terminal_iff.mp hterminal
  cases e with
  | start worker => rfl
  | crash i => rfl
  | tick elapsed => rfl
  | recordedElsewhere receiptId receiptHash => rfl
  | act i claimId =>
    unfold System.next
    dsimp only
    split
    · rfl
    · next worker _ =>
        unfold actWorker
        cases worker.place with
        | starting => rfl
        | claiming committed =>
          dsimp only
          split
          · have hnone : Historical.claimNext platform s.journal s.now
                worker.leaseDuration claimId = .ok (none, s.journal) := by
              exact if_pos hterminal
            rw [hnone]
          · rfl
        | holding committed claim =>
          have hnot : ∀ row ∈ s.journal.sessions, row.sessionId = claim.sessionId →
              ¬ holdsClaim row claim s.now := by
            intro row hrow _ hholds
            have hclosed := hended row hrow
            rw [hholds.1] at hclosed
            cases hclosed
          obtain ⟨e, hrefuse⟩ : ∃ e, commitStage platform s claim = .error e :=
            commitStage_refused (recordStage_refused hnot)
          dsimp only
          rw [hrefuse]
        | confirming committed sessionId =>
          dsimp only
          split
          · rfl
          · rfl
        | finishing =>
          dsimp only
          split
          · rfl
          · rfl
        | returned snapshot => rfl
        | failed e => rfl

theorem firstMismatch_self (tradingDate : Day) (receipts : List ResearchSessionStageReceipt) :
    firstMismatch tradingDate receipts receipts = none := by
  induction receipts with
  | nil => rfl
  | cons receipt receipts ih =>
    rw [firstMismatch, if_neg (not_not.mpr rfl)]
    exact ih

include h in
/-- A run that is over replays without a mismatch. -/
theorem JournalInv.replay_matched (hterminal : j.status.isTerminal = true) :
    ∃ report, replay platform j = .ok report ∧ report.matched = true ∧ report.mismatches = [] := by
  obtain ⟨snapshot, hrun, hstatus, -, -, hstatuses, hfollows⟩ := getRun_ok h
  have hended := h.terminal_iff.mp hterminal
  have hover : snapshot.status = .complete ∨ snapshot.status = .completeWithBlocks := by
    rw [hstatus, h.summary.of_ended hended]
    split
    · exact .inr rfl
    · exact .inl rfl
  have hsessions : snapshot.sessions.mapM (replaySession platform)
      = .ok (snapshot.sessions.map fun _ => []) := by
    apply mapM_ok_map
    intro session hsession
    have hclosed : session.status.isOpen = false := by
      have hmem : session.status ∈ j.sessions.map (·.status) := by
        rw [← hstatuses]
        exact mem_map_of_mem hsession
      obtain ⟨row, hrow, heq⟩ := mem_map.mp hmem
      rw [← heq]
      exact hended row hrow
    have hkernel := (hfollows session hsession).run_of_ended hclosed
    unfold replaySession
    rw [hkernel, ok_bind, firstMismatch_self]
    rw [if_neg (not_not.mpr rfl)]
    rfl
  have hflat : ∀ l : List HistoricalSessionSnapshot,
      (l.map fun _ => ([] : List HistoricalReplayMismatch)).flatten = [] := by
    intro l
    rw [flatten_eq_nil_iff]
    intro mismatches hmem
    obtain ⟨-, -, hnil⟩ := mem_map.mp hmem
    exact hnil.symm
  obtain ⟨mismatches, hmismatches, hnone⟩ : ∃ mismatches, replaySessions platform
          (decide (snapshot.runtimeContractVersion = .preE3))
          snapshot.sessions = .ok mismatches
        ∧ mismatches.flatten = [] := by
    unfold replaySessions
    split
    · exact ⟨[], rfl, rfl⟩
    · exact ⟨_, ofRaised_ok.mpr hsessions, hflat snapshot.sessions⟩
  refine ⟨{
    runId := snapshot.command.runId
    matched := mismatches.flatten = []
    replayedSessionCount := snapshot.sessions.length
    mismatches := mismatches.flatten
    recomputed := ¬ (decide (snapshot.runtimeContractVersion = .preE3)) },
    ?_, decide_eq_true hnone, hnone⟩
  unfold replay
  rw [hrun, ok_bind]
  refine bind_ok.mpr ⟨(), require_ok.mpr ?_, ?_⟩
  · rintro ⟨-, hcomplete, hblocks⟩
    exact hover.elim hcomplete hblocks
  · exact bind_ok.mpr ⟨mismatches, hmismatches, rfl⟩

/-- The run as any interleaving of drain loops leaves it. -/
structure DrainedSerially (platform : Platform)
    (command : HistoricalResearchCommand) (s : System) : Prop where
  /-- No two sessions run at once. -/
  one_running : (s.journal.sessions.filter (·.status = .running)).length ≤ 1
  /-- Before the first open session all are over, after it none is
  touched. -/
  in_turn : ∀ earlier row later, s.journal.sessions = earlier ++ row :: later →
    row.status.isOpen = true →
    (∀ before ∈ earlier, before.status.isOpen = false) →
    (∀ before ∈ earlier, before.status = .complete ∨ before.status = .blocked)
      ∧ ∀ after ∈ later, Untouched after
  /-- Every session reads back as the kernel would have it. -/
  follows_kernel : ∃ snapshot, getRun platform s.journal = .ok snapshot
    ∧ snapshot.sessions.map (·.status) = s.journal.sessions.map (·.status)
    ∧ ∀ session ∈ snapshot.sessions, FollowsKernel platform command session
  /-- The fencing token counts the attempts, which are numbered from one,
  and at most one of them is active. -/
  fenced : ∀ row ∈ s.journal.sessions, row.fencingToken = row.attempts.length
      ∧ row.attempts.map (·.attemptNumber) = List.range' 1 row.attempts.length
      ∧ (row.attempts.filter (·.status = .active)).length ≤ 1
  /-- A claim that is superseded or expired records nothing. -/
  stale : ∀ claim ∈ s.handed, ∀ row ∈ s.journal.sessions,
    row.sessionId = claim.sessionId → StaleClaim row claim s.now →
    (∀ receipt, ∃ e, recordStage s.journal s.otherReceipts s.now claim receipt = .error e)
      ∧ ∀ i worker committed claimId, s.workers[i]? = some worker →
        worker.place = .holding committed claim →
        (System.next platform (.act i claimId) s).journal = s.journal
  /-- The run is over when all its sessions are. -/
  terminal_iff : s.journal.status.isTerminal = true ↔ ∀ row ∈ s.journal.sessions,
      row.status = .complete ∨ row.status = .blocked
  /-- Then nothing changes any more, and the run replays as recorded. -/
  terminal_stays : s.journal.status.isTerminal = true →
    (∀ e, (System.next platform e s).journal = s.journal)
      ∧ ∃ report, replay platform s.journal = .ok report
        ∧ report.matched = true ∧ report.mismatches = []

include h in
theorem JournalInv.one_running : (j.sessions.filter (·.status = .running)).length ≤ 1 := by
  have hturn := h.in_turn
  generalize j.sessions = rows at hturn
  induction rows with
  | nil => exact Nat.zero_le _
  | cons row rows ih =>
    obtain ⟨hrow, hrows⟩ := pairwise_cons.mp hturn
    by_cases hrunning : row.status = .running
    · have hnone : rows.filter (·.status = .running) = [] := by
        rw [filter_eq_nil_iff]
        intro later hlater hlaterrunning
        have huntouched := hrow later hlater (by rw [hrunning]; rfl)
        have hpending := huntouched.pending
        rw [of_decide_eq_true hlaterrunning] at hpending
        cases hpending
      rw [filter_cons_of_pos (by simpa using hrunning), hnone]
      exact Nat.le_refl _
    · rw [filter_cons_of_neg (by simpa using hrunning)]
      exact ih hrows

theorem RowInv.ended_iff (h : RowInv platform command row) : row.status.isOpen = false
      ↔ row.status = .complete ∨ row.status = .blocked := by
  constructor
  · intro hended
    obtain ⟨completed, -, -, hplaced⟩ := h.placed
    exact (hplaced.of_ended hended).1
  · rintro (hstatus | hstatus)
    · rw [hstatus]
      rfl
    · rw [hstatus]
      rfl

/-- Historical research runs are serial and equal the kernel, whichever
workers race for them and whichever are lost. -/
theorem drained_serially (h : Reached platform command s) :
    DrainedSerially platform command s := by
  have hinv := systemInv_of_reached h
  have hj := hinv.journal
  constructor
  case one_running => exact hj.one_running
  case in_turn =>
    intro earlier row later hsessions hopen hended
    have hturn := hj.in_turn
    rw [hsessions] at hturn
    constructor
    · intro before hbefore
      have hmem : before ∈ s.journal.sessions := by
        rw [hsessions]
        exact mem_append_left _ hbefore
      exact (hj.rows before hmem).ended_iff.mp (hended before hbefore)
    · intro after hafter
      have hlater := (pairwise_append.mp hturn).2.1
      exact (pairwise_cons.mp hlater).1 after hafter hopen
  case follows_kernel =>
    obtain ⟨snapshot, hrun, -, -, -, hstatus, hfollows⟩ := getRun_ok hj
    exact ⟨snapshot, hrun, hstatus, hfollows⟩
  case fenced =>
    intro row hrow
    have hnumbered := (hj.rows row hrow).numbered
    obtain ⟨completed, -, -, hplaced⟩ := (hj.rows row hrow).placed
    exact ⟨hnumbered.token_eq, hnumbered.numbers_eq, hplaced.one_active⟩
  case stale =>
    intro claim hclaim row hrow hid hstale
    have hrefused : ∀ other ∈ s.journal.sessions, other.sessionId = claim.sessionId →
        ¬ holdsClaim other claim s.now := by
      intro other hother hotherid
      obtain ⟨holder, hholder, attempt, hbacks⟩ := hinv.backed claim hclaim
      have hrowis : row = holder := inj_on_of_nodup_map hj.ids_nodup
        hrow hholder (by rw [hid, hbacks.session_eq])
      have hotheris : other = holder := inj_on_of_nodup_map
        hj.ids_nodup hother hholder (by rw [hotherid, hbacks.session_eq])
      rw [hrowis] at hstale
      rw [hotheris]
      exact hbacks.not_holds (hj.rows holder hholder) hstale
    refine ⟨recordStage_refused hrefused, ?_⟩
    intro i worker committed claimId hworker hplace
    obtain ⟨e, hcommit⟩ : ∃ e, commitStage platform s claim = .error e :=
      commitStage_refused (recordStage_refused hrefused)
    unfold System.next
    dsimp only
    rw [hworker]
    show (actWorker platform s i worker claimId).journal = _
    unfold actWorker
    rw [hplace]
    dsimp only
    rw [hcommit]
  case terminal_iff =>
    rw [hj.terminal_iff]
    exact forall₂_congr fun row hrow => (hj.rows row hrow).ended_iff
  case terminal_stays =>
    intro hterminal
    exact ⟨hj.terminal_stays hterminal, hj.replay_matched hterminal⟩

end Drain

-- ==== a sample

def sampleReference (artifactKind artifactId : String) :
    ValidationArtifactReference :=
  ⟨artifactKind, artifactId, "sha256:" ++ String.ofList (List.replicate 64 'a')⟩

def sampleDigest : Digest := ⟨String.ofList (List.replicate 64 'a'), by decide +kernel⟩

/-- An owner that has the scope of a session and no decision for it; the
digests are those of the sample's own payloads. -/
def samplePlatform : Platform where
  sessionHash := fun _ =>
    ⟨"c06f5835bfbd01cdbfa30bc9e373ae561dc87a0ba6f0033ec17a8c82d28626dd", by decide +kernel⟩
  receiptHash := fun payload =>
    if payload.stage = .scope then
      ⟨"7dda31b936adea56b872d026c83dad665fc3a414a3f6298842ccb4115232976a", by decide +kernel⟩
    else
      ⟨"ae0335dc060d3475359de4bdb35db76e8a56c5676383977e49c534878abcd9f7", by decide +kernel⟩
  localInstant := fun _ day time => day * 86400000000 + time - 8 * 3600000000
  owner := fun _ stage _ =>
    if stage = .scope then .ok {
      status := .complete
      outputReferences := [sampleReference "SCOPE_RESULT" "result"]
      inputReferences := []
      completedAt := 1706745600000000
      reasonCodes := ["OWNER_RESULT"]
      inputs_sorted := by decide
      outputs_sorted := by decide +kernel
      complete_output := by decide
      reasons_sorted := by decide +kernel
      reasons_nonempty := by decide }
    else .ok {
      status := .blocked
      outputReferences := []
      inputReferences := [sampleReference "SCOPE_RESULT" "result"]
      completedAt := 1706745600000000
      reasonCodes := ["OWNER_BLOCKED"]
      inputs_sorted := by decide +kernel
      outputs_sorted := by decide
      complete_output := by decide
      reasons_sorted := by decide +kernel
      reasons_nonempty := by decide }

def sampleCommand : HistoricalResearchCommand where
  runId := "historical-research-run"
  tradingSessions := [19724]
  decisionLocalTime := 15 * 3600000000
  timezoneName := "Asia/Shanghai"
  tradingCalendarId := "calendar"
  tradingCalendarHash := sampleDigest
  runtimeScopePolicyId := "scope"
  runtimeScopePolicyHash := sampleDigest
  decisionPolicyId := "policy"
  decisionPolicyHash := sampleDigest
  targetProtocolReference := sampleReference "OUTCOME_TARGET_PROTOCOL" "target"
  experimentDefinitionReference := sampleReference "RESEARCH_EXPERIMENT_DEFINITION" "experiment"
  configurationReferences := [sampleReference "CONFIGURATION" "configuration"]
  dataAuthorityMode := .recordedLiveResearch
  evidenceQualification := .exploratoryPitIncomplete
  codeRevision := "revision"
  createdAt := 1706745600000000
  runtimeContractVersion := .e3
  sessions_nonempty := by decide
  sessions_sorted := by decide

def sampleWorker : Worker where
  leaseDuration := 600000000
  maxStageCommits := none
  place := .starting
  lease_positive := by decide

/-- The first worker claims the session and stalls; the second takes it
over when the lease has run out, the first is refused, and the second
works the session off until it blocks. -/
def sampleEvents : List RunEvent :=
  [.start sampleWorker, .start sampleWorker, .act 0 "", .act 0 "a",
    .tick 600000000, .act 1 "", .act 1 "b", .act 0 "", .act 1 "",
    .act 1 "", .act 1 "c", .act 1 "", .act 1 "", .act 1 "d", .act 1 ""]

def sampleSystem (j : Journal) : System := ⟨j, 1706745600000000, [], [], []⟩

/-- Two workers, one of whom loses its claim. -/
theorem drained_serially_sample : ∃ j, createOrGet samplePlatform sampleCommand = .ok j ∧
    let s := run (System.next samplePlatform) (sampleSystem j) sampleEvents
    s.journal.status = .completeWithBlocks ∧ s.handed.length = 3
      ∧ DrainedSerially samplePlatform sampleCommand s := by
  obtain ⟨j, hj⟩ := exists_of_isOk
    (show (createOrGet samplePlatform sampleCommand).isOk by decide +kernel)
  have hends : (createOrGet samplePlatform sampleCommand).map (fun j =>
      let s := run (System.next samplePlatform) (sampleSystem j) sampleEvents
      (s.journal.status, s.handed.length))
      = .ok (.completeWithBlocks, 3) := by
    decide +kernel
  rw [hj] at hends
  injection hends with hends
  injection hends with hstatus hhanded
  have hstart : Reached samplePlatform sampleCommand (sampleSystem j) := .start ⟨hj, rfl, rfl⟩
  exact ⟨j, hj, hstatus, hhanded, drained_serially
    (hstart.run sampleEvents (Along.of_forall (fun _ _ => trivial) _ _))⟩

end MarketRegimeAlpha.Historical
