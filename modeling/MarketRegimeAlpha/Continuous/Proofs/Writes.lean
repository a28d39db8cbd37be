/-
What one write to the tables can do, and what every write keeps.

# The writes

`Write` lists the writes of all the operations: a tick row is inserted,
claimed or changed under its token, a provider attempt is inserted or
settled, an evidence commit is inserted, or rows change that no rule of
the fence reads. Whatever an operation does is a chain of these.
-/
import MarketRegimeAlpha.Continuous.Journal

namespace MarketRegimeAlpha.Continuous

open Lib List

-- ==== rows and events

def RuntimeEvent.isClaimOf (tickId : String) (event : RuntimeEvent) : Bool :=
  event.eventType = .tickClaimed && event.tickId = some tickId

namespace Tick

def Leased (tick : Tick) : Prop := tick.lease.isSome = true ↔ tick.status = .inProgress

/-- The row keeps its key and its place in the run. -/
structure Same (tick tick' : Tick) : Prop where
  tickId_eq : tick'.tickId = tick.tickId
  sequence_eq : tick'.tickSequence = tick.tickSequence

/-- A row is what it was, or it was not terminal and has a larger
version. -/
def Grows (tick tick' : Tick) : Prop :=
  tick' = tick ∨ (tick.status.isTerminal = false
    ∧ tick.version < tick'.version ∧ tick.fencingToken ≤ tick'.fencingToken)

theorem Grows.trans {a b c : Tick} (h : Grows a b) (h' : Grows b c) :
    Grows a c := by
  rcases h with rfl | ⟨hopen, hversion, htoken⟩
  · exact h'
  · rcases h' with rfl | ⟨-, hversion', htoken'⟩
    · exact .inr ⟨hopen, hversion, htoken⟩
    · exact .inr ⟨hopen, hversion.trans hversion', htoken.trans htoken'⟩

end Tick

namespace Journal

variable {j j' : Journal}

-- ==== the writes

def claims (j : Journal) (tickId : String) : Nat := j.events.countP (RuntimeEvent.isClaimOf tickId)

/-- The tick rows with the row of `tick.tickId` replaced. -/
def setTick (tick : Tick) (ticks : List Tick) : List Tick :=
  ticks.map fun row => if row.tickId = tick.tickId then tick else row

inductive Write (j : Journal) : Journal → Prop
  | admitted {tick : Tick} {status : RunState} (hnew : ∀ row ∈ j.ticks, row.tickId ≠ tick.tickId)
      (hsequence : tick.tickSequence = j.currentTickSequence + 1)
      (htoken : tick.fencingToken = 0) (hleased : tick.Leased) :
      Write j { j with
        ticks := j.ticks ++ [tick]
        status := status
        version := j.version + 1
        currentTickSequence := j.currentTickSequence + 1 }
  | claim {tick tick' : Tick} {now : Instant} (hmem : tick ∈ j.ticks)
      (hguard : guardTickMutation tick tick' = .ok ())
      (hsame : tick.Same tick')
      (htoken : tick'.fencingToken = tick.fencingToken + 1)
      (hleased : tick'.Leased) :
      Write j ({ j with ticks := setTick tick' j.ticks }.insertEvent
        (some tick.tickId) .tickClaimed now (some tick'.fencingToken))
  | change {tick tick' : Tick} (hmem : tick ∈ j.ticks)
      (hguard : guardTickMutation tick tick' = .ok ())
      (hsame : tick.Same tick')
      (htoken : tick'.fencingToken = tick.fencingToken)
      (hleased : tick.Leased → tick'.Leased) :
      Write j { j with ticks := setTick tick' j.ticks }
  | start {tick : Tick} {attempt : ProviderAttempt} (hmem : tick ∈ j.ticks)
      (htick : attempt.tickId = tick.tickId)
      (htoken : attempt.fencingToken = tick.fencingToken)
      (hnumber : attempt.attemptNumber
        = ((j.attemptsOf tick.tickId).map (·.attemptNumber)).foldr max 0 + 1)
      (hfence : ∀ other ∈ j.attemptsOf tick.tickId, other.fencingToken ≠ attempt.fencingToken)
      (hid : attempt.attemptId = j.attemptSequence + 1) :
      Write j { j with
        attempts := j.attempts ++ [attempt]
        attemptSequence := attempt.attemptId }
  | settle {f : ProviderAttempt → ProviderAttempt}
      (hsame : ∀ attempt, (f attempt).attemptId = attempt.attemptId
        ∧ (f attempt).tickId = attempt.tickId
        ∧ (f attempt).attemptNumber = attempt.attemptNumber
        ∧ (f attempt).fencingToken = attempt.fencingToken)
      (hended : ∀ attempt, attempt.status ≠ .started → f attempt = attempt) :
      Write j { j with attempts := j.attempts.map f }
  | commit {evidence : EvidenceCommit} {attempt : ProviderAttempt} (hmem : attempt ∈ j.attempts)
      (hid : attempt.attemptId = evidence.attemptId)
      (hsucceeded : attempt.status = .succeeded)
      (hmanifest : attempt.sourceManifest = some evidence.sourceManifest)
      (hnew : ∀ other ∈ j.evidence, other.attemptId ≠ evidence.attemptId) :
      Write j { j with evidence := j.evidence ++ [evidence] }
  | aside {status : RunState} {version : Nat} {current : List CurrentEvidence}
      {decisions : List ChangeDecision} {ids : Nat} :
      Write j { j with
        status := status
        version := version
        current := current
        decisions := decisions
        attemptSequence := j.attemptSequence + ids }
  | note {tickId : Option String} {eventType : EventType} {now : Instant}
      {fencingToken : Option Nat} (hother : eventType ≠ .tickClaimed) :
      Write j (j.insertEvent tickId eventType now fencingToken)

abbrev Writes : Journal → Journal → Prop := Relation.ReflTransGen Write

-- ==== the invariant

structure Sound (j : Journal) : Prop where
  ids_nodup : (j.ticks.map (·.tickId)).Nodup
  sequences : j.ticks.map (·.tickSequence) = List.range' 1 j.currentTickSequence
  leased : ∀ tick ∈ j.ticks, tick.Leased
  token_eq : ∀ tick ∈ j.ticks, tick.fencingToken = j.claims tick.tickId
  unclaimed : ∀ tickId, (∀ tick ∈ j.ticks, tick.tickId ≠ tickId) → j.claims tickId = 0
  attempt_of : ∀ attempt ∈ j.attempts, ∃ tick ∈ j.ticks, tick.tickId = attempt.tickId
      ∧ attempt.fencingToken ≤ tick.fencingToken
  numbered : ∀ tickId, (j.attemptsOf tickId).map (·.attemptNumber)
    = List.range' 1 (j.attemptsOf tickId).length
  one_per_fence : ∀ tickId, ((j.attemptsOf tickId).map (·.fencingToken)).Nodup
  attempt_ids_nodup : (j.attempts.map (·.attemptId)).Nodup
  attempt_ids_drawn : ∀ attempt ∈ j.attempts, attempt.attemptId ≤ j.attemptSequence
  one_commit : (j.evidence.map (·.attemptId)).Nodup
  commit_of : ∀ evidence ∈ j.evidence, ∃ attempt ∈ j.attempts,
    attempt.attemptId = evidence.attemptId ∧ attempt.status = .succeeded
      ∧ attempt.sourceManifest = some evidence.sourceManifest

def Grows (j j' : Journal) : Prop :=
  ∀ tick ∈ j.ticks, ∃ tick' ∈ j'.ticks, tick.Same tick' ∧ tick.Grows tick'

theorem Grows.refl (j : Journal) : Grows j j := fun tick hmem => ⟨tick, hmem, ⟨rfl, rfl⟩, .inl rfl⟩

theorem Grows.trans {a b c : Journal} (h : Grows a b) (h' : Grows b c) :
    Grows a c := by
  intro tick hmem
  obtain ⟨tick', hmem', hsame, hgrows⟩ := h tick hmem
  obtain ⟨tick'', hmem'', hsame', hgrows'⟩ := h' tick' hmem'
  refine ⟨tick'', hmem'', ?_, hgrows.trans hgrows'⟩
  exact ⟨hsame'.tickId_eq.trans hsame.tickId_eq, hsame'.sequence_eq.trans hsame.sequence_eq⟩

-- ==== replacing one row

section Replacing

variable {ticks : List Tick} {tick tick' row : Tick}

theorem mem_setTick : row ∈ setTick tick' ticks ↔
    (row = tick' ∧ ∃ old ∈ ticks, old.tickId = tick'.tickId)
      ∨ (row ∈ ticks ∧ row.tickId ≠ tick'.tickId) := by
  unfold setTick
  rw [mem_map]
  constructor
  · rintro ⟨old, hmem, rfl⟩
    by_cases heq : old.tickId = tick'.tickId
    · rw [if_pos heq]
      exact .inl ⟨rfl, old, hmem, heq⟩
    · rw [if_neg heq]
      exact .inr ⟨hmem, heq⟩
  · rintro (⟨rfl, old, hmem, heq⟩ | ⟨hmem, hne⟩)
    · exact ⟨old, hmem, if_pos heq⟩
    · exact ⟨row, hmem, if_neg hne⟩

theorem map_setTick {β : Type} (g : Tick → β) (hnodup : (ticks.map (·.tickId)).Nodup)
    (hmem : tick ∈ ticks) (hid : tick'.tickId = tick.tickId) (hg : g tick' = g tick) :
    (setTick tick' ticks).map g = ticks.map g := by
  unfold setTick
  rw [map_map]
  refine map_congr_left fun old hold => ?_
  show g (if old.tickId = tick'.tickId then tick' else old) = g old
  by_cases heq : old.tickId = tick'.tickId
  · rw [if_pos heq, hg]
    rw [inj_on_of_nodup_map hnodup hold hmem (heq.trans hid)]
  · rw [if_neg heq]

end Replacing

-- ==== attempts numbered

/-- The largest of the numbers `1 .. n`. -/
theorem foldr_max_range' (n : Nat) : (List.range' 1 n).foldr max 0 = n := by
  induction n with
  | zero => rfl
  | succ n ih =>
    rw [range'_1_concat, foldr_append]
    show (List.range' 1 n).foldr max (max (1 + n) 0) = n + 1
    have hfold : ∀ (l : List Nat) (m : Nat), l.foldr max m = max (l.foldr max 0) m := by
      intro l m
      induction l with
      | nil => simp
      | cons a l ih => simp only [foldr_cons, ih, max_assoc]
    rw [hfold, ih]
    omega

theorem attemptsOf_append (tickId : String) (attempts : List ProviderAttempt)
    (attempt : ProviderAttempt) :
    (attempts ++ [attempt]).filter (·.tickId = tickId) = attempts.filter (·.tickId = tickId)
        ++ if attempt.tickId = tickId then [attempt] else [] := by
  by_cases heq : attempt.tickId = tickId
  · simp [heq]
  · simp [heq]

-- ==== what a write keeps

variable {tick tick' : Tick}

theorem grows_of_guard (hguard : guardTickMutation tick tick' = .ok ())
    (htoken : tick.fencingToken ≤ tick'.fencingToken) : tick.Grows tick' := by
  unfold guardTickMutation at hguard
  simp only [bind_ok, require_ok] at hguard
  obtain ⟨-, hversion, -, hopen, -⟩ := hguard
  refine .inr ⟨?_, ?_, htoken⟩
  · simpa using hopen
  · omega

theorem grows_setTick (hmem : tick ∈ j.ticks)
    (hnodup : (j.ticks.map (·.tickId)).Nodup) (hsame : tick.Same tick')
    (hgrows : tick.Grows tick') (hticks : j'.ticks = setTick tick' j.ticks) :
    Grows j j' := by
  intro row hrow
  by_cases heq : row.tickId = tick'.tickId
  · have hrowis : row = tick := inj_on_of_nodup_map hnodup hrow hmem
      (heq.trans hsame.tickId_eq)
    subst hrowis
    refine ⟨tick', ?_, hsame, hgrows⟩
    rw [hticks, mem_setTick]
    exact .inl ⟨rfl, row, hrow, heq⟩
  · refine ⟨row, ?_, ⟨rfl, rfl⟩, .inl rfl⟩
    rw [hticks, mem_setTick]
    exact .inr ⟨hrow, heq⟩

theorem Write.grows (h : Write j j') (hj : Sound j) : Grows j j' := by
  cases h with
  | admitted hnew hsequence htoken hleased =>
    intro row hrow
    exact ⟨row, mem_append_left _ hrow, ⟨rfl, rfl⟩, .inl rfl⟩
  | claim hmem hguard hsame htoken hleased =>
    have hgrows := grows_of_guard hguard (by omega)
    exact grows_setTick hmem hj.ids_nodup hsame hgrows rfl
  | change hmem hguard hsame htoken hleased =>
    have hgrows := grows_of_guard hguard htoken.ge
    exact grows_setTick hmem hj.ids_nodup hsame hgrows rfl
  | start => exact Grows.refl j
  | settle => exact Grows.refl j
  | commit => exact Grows.refl j
  | aside => exact Grows.refl j
  | note => exact Grows.refl j

/-- A tick row replaced by one with its key keeps what is said of the
attempts' ticks. -/
theorem attempt_of_setTick (hj : Sound j) (hmem : tick ∈ j.ticks) (hsame : tick.Same tick')
    (htoken : tick.fencingToken ≤ tick'.fencingToken) :
    ∀ attempt ∈ j.attempts, ∃ row ∈ setTick tick' j.ticks, row.tickId = attempt.tickId
        ∧ attempt.fencingToken ≤ row.fencingToken := by
  intro attempt hattempt
  obtain ⟨row, hrow, hid, hle⟩ := hj.attempt_of attempt hattempt
  by_cases heq : row.tickId = tick'.tickId
  · have hrowis : row = tick := inj_on_of_nodup_map hj.ids_nodup hrow
      hmem (heq.trans hsame.tickId_eq)
    subst hrowis
    exact ⟨tick', mem_setTick.mpr (.inl ⟨rfl, row, hrow, heq⟩), heq ▸ hid, hle.trans htoken⟩
  · exact ⟨row, mem_setTick.mpr (.inr ⟨hrow, heq⟩), hid, hle⟩

theorem ids_setTick (hj : Sound j) (hmem : tick ∈ j.ticks) (hsame : tick.Same tick') :
    (setTick tick' j.ticks).map (·.tickId) = j.ticks.map (·.tickId) :=
  map_setTick (·.tickId) hj.ids_nodup hmem hsame.tickId_eq hsame.tickId_eq

theorem free_of_setTick (hj : Sound j) (hmem : tick ∈ j.ticks) (hsame : tick.Same tick')
    {tickId : String} (hnone : ∀ row ∈ setTick tick' j.ticks, row.tickId ≠ tickId) :
    ∀ row ∈ j.ticks, row.tickId ≠ tickId := by
  intro row hrow heq
  have hin : tickId ∈ (setTick tick' j.ticks).map (·.tickId) := by
    rw [ids_setTick hj hmem hsame]
    exact heq ▸ mem_map_of_mem hrow
  obtain ⟨row', hrow', hid⟩ := mem_map.mp hin
  exact hnone row' hrow' hid

theorem claims_insertEvent (j : Journal) (claimed other : String)
    (now : Instant) (fencingToken : Option Nat) :
    (j.insertEvent (some claimed) .tickClaimed now fencingToken).claims other
      = j.claims other + if claimed = other then 1 else 0 := by
  unfold claims insertEvent
  simp [RuntimeEvent.isClaimOf]

theorem claims_note {eventType : EventType} (h : eventType ≠ .tickClaimed) (j : Journal)
    (tickId : Option String) (now : Instant) (fencingToken : Option Nat) (other : String) :
    (j.insertEvent tickId eventType now fencingToken).claims other = j.claims other := by
  unfold claims insertEvent
  simp [RuntimeEvent.isClaimOf, h]

-- ==== soundness is kept

section Kept

variable {tick tick' : Tick}

/-- A fresh tick row takes the next place of the run. -/
theorem Sound.admitted {status : RunState} (hj : Sound j)
    (hnew : ∀ row ∈ j.ticks, row.tickId ≠ tick.tickId)
    (hsequence : tick.tickSequence = j.currentTickSequence + 1)
    (htoken : tick.fencingToken = 0) (hleased : tick.Leased) :
    Sound { j with
      ticks := j.ticks ++ [tick]
      status := status
      version := j.version + 1
      currentTickSequence := j.currentTickSequence + 1 } := by
  constructor
  case ids_nodup =>
    rw [map_append, nodup_append]
    refine ⟨hj.ids_nodup, by simp, ?_⟩
    intro id hid other hother
    obtain ⟨row, hrow, rfl⟩ := mem_map.mp hid
    rw [map_singleton, mem_singleton] at hother
    exact hother ▸ hnew row hrow
  case sequences =>
    rw [map_append, hj.sequences, range'_1_concat, map_singleton,
      hsequence, Nat.add_comm]
  case leased =>
    intro row hrow
    rcases mem_append.mp hrow with hrow | hrow
    · exact hj.leased row hrow
    · exact mem_singleton.mp hrow ▸ hleased
  case token_eq =>
    intro row hrow
    rcases mem_append.mp hrow with hrow | hrow
    · exact hj.token_eq row hrow
    · rw [mem_singleton.mp hrow, htoken]
      exact (hj.unclaimed _ hnew).symm
  case unclaimed =>
    intro tickId hnone
    exact hj.unclaimed tickId fun row hrow => hnone row (mem_append_left _ hrow)
  case attempt_of =>
    intro attempt hattempt
    obtain ⟨row, hrow, hrest⟩ := hj.attempt_of attempt hattempt
    exact ⟨row, mem_append_left _ hrow, hrest⟩
  case numbered => exact hj.numbered
  case one_per_fence => exact hj.one_per_fence
  case attempt_ids_nodup => exact hj.attempt_ids_nodup
  case attempt_ids_drawn => exact hj.attempt_ids_drawn
  case one_commit => exact hj.one_commit
  case commit_of => exact hj.commit_of

/-- A tick row changes under its token. -/
theorem Sound.change (hj : Sound j) (hmem : tick ∈ j.ticks) (hsame : tick.Same tick')
    (htoken : tick'.fencingToken = tick.fencingToken) (hleased : tick.Leased → tick'.Leased) :
    Sound { j with ticks := setTick tick' j.ticks } := by
  constructor
  case ids_nodup =>
    rw [ids_setTick hj hmem hsame]
    exact hj.ids_nodup
  case sequences =>
    rw [map_setTick _ hj.ids_nodup hmem hsame.tickId_eq hsame.sequence_eq]
    exact hj.sequences
  case leased =>
    intro row hrow
    rcases mem_setTick.mp hrow with ⟨rfl, -⟩ | ⟨hrow, -⟩
    · exact hleased (hj.leased tick hmem)
    · exact hj.leased row hrow
  case token_eq =>
    intro row hrow
    rcases mem_setTick.mp hrow with ⟨rfl, -⟩ | ⟨hrow, -⟩
    · rw [htoken, hsame.tickId_eq]
      exact hj.token_eq tick hmem
    · exact hj.token_eq row hrow
  case unclaimed =>
    intro tickId hnone
    exact hj.unclaimed tickId (free_of_setTick hj hmem hsame hnone)
  case attempt_of => exact attempt_of_setTick hj hmem hsame htoken.ge
  case numbered => exact hj.numbered
  case one_per_fence => exact hj.one_per_fence
  case attempt_ids_nodup => exact hj.attempt_ids_nodup
  case attempt_ids_drawn => exact hj.attempt_ids_drawn
  case one_commit => exact hj.one_commit
  case commit_of => exact hj.commit_of

/-- A claim raises the token by one, and is one more claim. -/
theorem Sound.claim {now : Instant} (hj : Sound j) (hmem : tick ∈ j.ticks) (hsame : tick.Same tick')
    (htoken : tick'.fencingToken = tick.fencingToken + 1) (hleased : tick'.Leased) :
    Sound ({ j with ticks := setTick tick' j.ticks }.insertEvent
      (some tick.tickId) .tickClaimed now (some tick'.fencingToken)) := by
  have hclaims : ∀ tickId, ({ j with
        ticks := setTick tick' j.ticks }.insertEvent (some tick.tickId)
          .tickClaimed now (some tick'.fencingToken)).claims tickId
      = j.claims tickId + if tick.tickId = tickId then 1 else 0 :=
    fun tickId => claims_insertEvent _ _ _ _ _
  constructor
  case ids_nodup =>
    show ((setTick tick' j.ticks).map (·.tickId)).Nodup
    rw [ids_setTick hj hmem hsame]
    exact hj.ids_nodup
  case sequences =>
    show (setTick tick' j.ticks).map (·.tickSequence) = _
    rw [map_setTick _ hj.ids_nodup hmem hsame.tickId_eq hsame.sequence_eq]
    exact hj.sequences
  case leased =>
    intro row hrow
    rcases mem_setTick.mp hrow with ⟨rfl, -⟩ | ⟨hrow, -⟩
    · exact hleased
    · exact hj.leased row hrow
  case token_eq =>
    intro row hrow
    rw [hclaims]
    rcases mem_setTick.mp hrow with ⟨rfl, -⟩ | ⟨hrow, hne⟩
    · rw [htoken, hsame.tickId_eq, if_pos rfl, hj.token_eq tick hmem]
    · have hother : ¬ tick.tickId = row.tickId :=
        fun heq => hne (heq.symm.trans hsame.tickId_eq.symm)
      rw [if_neg hother, Nat.add_zero]
      exact hj.token_eq row hrow
  case unclaimed =>
    intro tickId hnone
    have hfresh := free_of_setTick hj hmem hsame hnone
    rw [hclaims, hj.unclaimed tickId hfresh, if_neg (hfresh tick hmem)]
  case attempt_of => exact attempt_of_setTick hj hmem hsame (by omega)
  case numbered => exact hj.numbered
  case one_per_fence => exact hj.one_per_fence
  case attempt_ids_nodup => exact hj.attempt_ids_nodup
  case attempt_ids_drawn => exact hj.attempt_ids_drawn
  case one_commit => exact hj.one_commit
  case commit_of => exact hj.commit_of

/-- An attempt takes the next number of its tick, under a token no attempt
has had. -/
theorem Sound.start {attempt : ProviderAttempt} (hj : Sound j)
    (hmem : tick ∈ j.ticks) (htick : attempt.tickId = tick.tickId)
    (htoken : attempt.fencingToken = tick.fencingToken)
    (hnumber : attempt.attemptNumber
      = ((j.attemptsOf tick.tickId).map (·.attemptNumber)).foldr max 0 + 1)
    (hfence : ∀ other ∈ j.attemptsOf tick.tickId, other.fencingToken ≠ attempt.fencingToken)
    (hid : attempt.attemptId = j.attemptSequence + 1) :
    Sound { j with
      attempts := j.attempts ++ [attempt]
      attemptSequence := attempt.attemptId } := by
  constructor
  case ids_nodup => exact hj.ids_nodup
  case sequences => exact hj.sequences
  case leased => exact hj.leased
  case token_eq => exact hj.token_eq
  case unclaimed => exact hj.unclaimed
  case attempt_of =>
    intro other hother
    rcases mem_append.mp hother with hother | hother
    · exact hj.attempt_of other hother
    · rw [mem_singleton.mp hother]
      exact ⟨tick, hmem, htick.symm, htoken.le⟩
  case numbered =>
    intro tickId
    show (((j.attempts ++ [attempt]).filter (·.tickId = tickId)).map
      (·.attemptNumber)) = List.range' 1
        ((j.attempts ++ [attempt]).filter (·.tickId = tickId)).length
    rw [attemptsOf_append]
    have hbefore := hj.numbered tickId
    by_cases heq : attempt.tickId = tickId
    · rw [hj.numbered, foldr_max_range', ← htick, heq] at hnumber
      rw [if_pos heq, map_append, length_append, length_singleton,
        range'_1_concat, map_singleton, hnumber]
      show (j.attemptsOf tickId).map (·.attemptNumber) ++ [(j.attemptsOf tickId).length + 1] = _
      rw [hbefore, Nat.add_comm]
      rfl
    · rw [if_neg heq, append_nil]
      exact hbefore
  case one_per_fence =>
    intro tickId
    show (((j.attempts ++ [attempt]).filter (·.tickId = tickId)).map
      (·.fencingToken)).Nodup
    rw [attemptsOf_append]
    by_cases heq : attempt.tickId = tickId
    · rw [if_pos heq, map_append, nodup_append]
      refine ⟨hj.one_per_fence tickId, by simp, ?_⟩
      intro token htokens other hother
      obtain ⟨row, hrow, rfl⟩ := mem_map.mp htokens
      rw [map_singleton, mem_singleton] at hother
      rw [hother]
      apply hfence row
      rw [← htick, heq]
      exact hrow
    · rw [if_neg heq, append_nil]
      exact hj.one_per_fence tickId
  case attempt_ids_nodup =>
    rw [map_append, nodup_append]
    refine ⟨hj.attempt_ids_nodup, by simp, ?_⟩
    intro id hids other hother
    obtain ⟨row, hrow, rfl⟩ := mem_map.mp hids
    rw [map_singleton, mem_singleton] at hother
    have hdrawn := hj.attempt_ids_drawn row hrow
    omega
  case attempt_ids_drawn =>
    intro other hother
    show other.attemptId ≤ attempt.attemptId
    rcases mem_append.mp hother with hother | hother
    · have hdrawn := hj.attempt_ids_drawn other hother
      omega
    · rw [mem_singleton.mp hother]
  case one_commit => exact hj.one_commit
  case commit_of =>
    intro evidence hevidence
    obtain ⟨row, hrow, hrest⟩ := hj.commit_of evidence hevidence
    exact ⟨row, mem_append_left _ hrow, hrest⟩

/-- Attempts that were started are settled. -/
theorem Sound.settle {f : ProviderAttempt → ProviderAttempt} (hj : Sound j)
    (hsame : ∀ attempt, (f attempt).attemptId = attempt.attemptId
      ∧ (f attempt).tickId = attempt.tickId
      ∧ (f attempt).attemptNumber = attempt.attemptNumber
      ∧ (f attempt).fencingToken = attempt.fencingToken)
    (hended : ∀ attempt, attempt.status ≠ .started → f attempt = attempt) :
    Sound { j with attempts := j.attempts.map f } := by
  have hof : ∀ tickId, (j.attempts.map f).filter (·.tickId = tickId)
      = (j.attemptsOf tickId).map f := by
    intro tickId
    rw [filter_map]
    congr 1
    refine filter_congr fun attempt _ => ?_
    show decide ((f attempt).tickId = tickId) = _
    rw [(hsame attempt).2.1]
  have hcolumn : ∀ {β : Type} (g : ProviderAttempt → β)
      (l : List ProviderAttempt), (∀ attempt, g (f attempt) = g attempt) →
      (l.map f).map g = l.map g := by
    intro β g l hg
    rw [map_map]
    exact map_congr_left fun attempt _ => hg attempt
  constructor
  case ids_nodup => exact hj.ids_nodup
  case sequences => exact hj.sequences
  case leased => exact hj.leased
  case token_eq => exact hj.token_eq
  case unclaimed => exact hj.unclaimed
  case attempt_of =>
    intro attempt hattempt
    obtain ⟨old, hold, rfl⟩ := mem_map.mp hattempt
    rw [(hsame old).2.1, (hsame old).2.2.2]
    exact hj.attempt_of old hold
  case numbered =>
    intro tickId
    show ((j.attempts.map f).filter (·.tickId = tickId)).map _
      = List.range' 1 ((j.attempts.map f).filter (·.tickId = tickId)).length
    rw [hof, hcolumn _ _ fun attempt => (hsame attempt).2.2.1, length_map]
    exact hj.numbered tickId
  case one_per_fence =>
    intro tickId
    show (((j.attempts.map f).filter (·.tickId = tickId)).map _).Nodup
    rw [hof, hcolumn _ _ fun attempt => (hsame attempt).2.2.2]
    exact hj.one_per_fence tickId
  case attempt_ids_nodup =>
    rw [hcolumn _ _ fun attempt => (hsame attempt).1]
    exact hj.attempt_ids_nodup
  case attempt_ids_drawn =>
    intro attempt hattempt
    obtain ⟨old, hold, rfl⟩ := mem_map.mp hattempt
    rw [(hsame old).1]
    exact hj.attempt_ids_drawn old hold
  case one_commit => exact hj.one_commit
  case commit_of =>
    intro evidence hevidence
    obtain ⟨attempt, hattempt, hid, hsucceeded, hmanifest⟩ := hj.commit_of evidence hevidence
    refine ⟨attempt, ?_, hid, hsucceeded, hmanifest⟩
    have hkept := hended attempt (by rw [hsucceeded]; decide)
    exact hkept ▸ mem_map_of_mem hattempt

end Kept

/-- Every write keeps the tables sound. -/
theorem Write.sound (h : Write j j') (hj : Sound j) : Sound j' := by
  cases h with
  | admitted hnew hsequence htoken hleased => exact hj.admitted hnew hsequence htoken hleased
  | claim hmem hguard hsame htoken hleased => exact hj.claim hmem hsame htoken hleased
  | change hmem hguard hsame htoken hleased => exact hj.change hmem hsame htoken hleased
  | start hmem htick htoken hnumber hfence hid =>
    exact hj.start hmem htick htoken hnumber hfence hid
  | settle hsame hended => exact hj.settle hsame hended
  | @commit evidence attempt hmem hid hsucceeded hmanifest hnew =>
    refine { hj with one_commit := ?_, commit_of := ?_ }
    · show ((j.evidence ++ [evidence]).map (·.attemptId)).Nodup
      rw [map_append, nodup_append]
      refine ⟨hj.one_commit, by simp, ?_⟩
      intro id hids other hother
      obtain ⟨row, hrow, rfl⟩ := mem_map.mp hids
      rw [map_singleton, mem_singleton] at hother
      exact hother ▸ hnew row hrow
    · intro other hother
      rcases mem_append.mp hother with hother | hother
      · exact hj.commit_of other hother
      · rw [mem_singleton.mp hother]
        exact ⟨attempt, hmem, hid, hsucceeded, hmanifest⟩
  | aside =>
    refine { hj with attempt_ids_drawn := ?_ }
    intro attempt hattempt
    exact (hj.attempt_ids_drawn attempt hattempt).trans (Nat.le_add_right _ _)
  | note hother =>
    have hclaims := claims_note hother j
    refine { hj with token_eq := ?_, unclaimed := ?_ }
    · intro row hrow
      rw [hclaims]
      exact hj.token_eq row hrow
    · intro tickId hnone
      rw [hclaims]
      exact hj.unclaimed tickId hnone

theorem Writes.sound_grows (h : Writes j j') (hj : Sound j) : Sound j' ∧ Grows j j' := by
  induction h with
  | refl => exact ⟨hj, Grows.refl j⟩
  | tail _ hwrite ih => exact ⟨hwrite.sound ih.1, ih.2.trans (hwrite.grows ih.1)⟩

end Journal

end MarketRegimeAlpha.Continuous
