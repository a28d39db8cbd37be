/-
A proposal is never committed beyond the quantity it recommends.

# The commitment of a trade

What a trade has filled and what it still reserves is its whole intent while
it is active, and only what it has filled once it has ended
(`reserved_of_active`, `reserved_of_terminal`). A Fill therefore moves
nothing as long as the trade stays within its intent, a cancellation frees
the rest, and UNKNOWN frees nothing (`Replays.committed_le`): only a creation
commits more, and there the authority is checked (`Granted`).
-/
import MarketRegimeAlpha.Execution.Proofs.Budget

namespace MarketRegimeAlpha.Execution

open Lib List
open Position (Instant TradeSide FillKind)

variable {ledger ledger' : Ledger} {authorization : StrategyExecutionAuthorization}
  {trades : List ManualTradeRecord}

-- ==== the authority

structure Granted (observations : Observations) (ledger : Ledger) (record : ManualTradeRecord)
    (authorization : StrategyExecutionAuthorization)
    (observation : AccountObservation) : Prop where
  authorized : record.authority.authorization = some authorization
  observed : observations.account authorization.accountObservationId = some observation
  availableCash : observation.availableCash = authorization.availableCash
  recommended : ∀ row ∈ ledger.proposalRows authorization.proposalId,
    ∀ other ∈ row.aggregate.authority.authorization,
      other.recommendedQuantity = authorization.recommendedQuantity
  proposal : (((ledger.proposalRows authorization.proposalId).map
      (·.aggregate)).map (·.filledQuantity)).sum
    + (((ledger.proposalRows authorization.proposalId).map
      (·.aggregate)).map (·.reserved)).sum
    + record.intendedQuantity ≤ authorization.recommendedQuantity
  cash : record.side = .buy → (record.intendedQuantity : ℚ) * authorization.referencePrice
      ≤ authorization.availableCash
        - reservedCash ((ledger.strategyRows authorization.accountId).map
            (·.aggregate))
        - unobservedBuyFillCash ledger authorization.accountId observation.asOfTime
  sell : record.side = .sell → (record.intendedQuantity : Int)
      ≤ ((observations.position authorization.accountObservationId
          authorization.symbol).map fun position => (position.availableQuantity : Int)).getD 0
        - reservedQuantity authorization.symbol
            ((ledger.strategyRows authorization.accountId).map (·.aggregate))
        - unobservedEffectiveFillQuantity ledger authorization.accountId
            authorization.symbol .sell observation.asOfTime

theorem mapM_construct {rows : List TradeRow}
    (h : (rows.mapM fun row => row.aggregate.construct) = .ok trades) :
    rows.map (·.aggregate) = trades := by
  have hmap := map_mapM_ok (g := id) (k := TradeRow.aggregate)
    (fun _ _ hconstruct => (construct_eq_ok.mp hconstruct).2.symm) h
  rw [map_id] at hmap
  exact hmap.symm

/-- The quantity authorized is the one recommended, of the new trade and of
every earlier one. -/
theorem authorizedQuantity_eq_ok {authorized : Nat}
    (h : authorizedQuantity authorization trades = .ok authorized) :
    authorized = authorization.recommendedQuantity ∧
      ∀ trade ∈ trades, ∀ other ∈ trade.authority.authorization,
        other.recommendedQuantity = authorization.recommendedQuantity := by
  unfold authorizedQuantity at h
  cases trades with
  | nil =>
    obtain ⟨_, _, h⟩ := bind_ok.mp h
    exact ⟨(pure_ok.mp h).symm, fun _ h => absurd h not_mem_nil⟩
  | cons first rest =>
    simp only at h
    cases hfirst : first.authority.authorization with
    | none =>
      rw [hfirst] at h
      cases h
    | some earliest =>
      rw [hfirst] at h
      obtain ⟨_, hsame, h⟩ := bind_ok.mp h
      have hsame := require_ok.mp hsame
      obtain ⟨_, hnew, h⟩ := bind_ok.mp h
      obtain ⟨hrecommended, _⟩ := require_ok.mp hnew
      refine ⟨(pure_ok.mp h).symm.trans hrecommended.symm, ?_⟩
      intro trade htrade other hother
      obtain ⟨_, hany⟩ := hsame trade htrade
      rw [Option.mem_def.mp hother, Option.any_some, decide_eq_true_eq] at hany
      rw [hany.1, hrecommended]

variable {observations : Observations} {record : ManualTradeRecord} {evidence : StrategyEvidence}

theorem validateAggregate_eq_ok {observation : AccountObservation}
    (hauthorized : record.authority.authorization = some authorization)
    (hobserved : observations.account authorization.accountObservationId = some observation)
    (hcash : observation.availableCash = authorization.availableCash)
    (hintended : 0 < record.intendedQuantity)
    (h : validateStrategyAggregateAuthority observations evidence ledger
      record authorization observation.asOfTime = .ok ()) :
    Granted observations ledger record authorization observation := by
  obtain ⟨trades, htrades, h⟩ := bind_ok.mp h
  obtain rfl := mapM_construct htrades
  obtain ⟨proposalTrades, hproposal, h⟩ := bind_ok.mp h
  obtain rfl := mapM_construct hproposal
  obtain ⟨authorized, hquantity, h⟩ := bind_ok.mp h
  obtain ⟨rfl, hrecommended⟩ := authorizedQuantity_eq_ok hquantity
  obtain ⟨_, hremaining, h⟩ := bind_ok.mp h
  have hremaining := require_ok.mp hremaining
  refine ⟨hauthorized, hobserved, hcash, fun row hrow => ?_, by omega, ?_, ?_⟩
  · exact hrecommended row.aggregate (mem_map_of_mem hrow)
  · intro hside
    rw [hside] at h
    obtain ⟨_, hremainingCash, _⟩ := bind_ok.mp h
    exact require_ok.mp hremainingCash
  · intro hside
    rw [hside] at h
    exact require_ok.mp h

theorem validateStrategyAuthority_eq_ok (hintended : 0 < record.intendedQuantity)
    (h : validateStrategyAuthority observations evidence ledger record = .ok ()) :
    ∃ authorization observation,
      Granted observations ledger record authorization observation := by
  unfold validateStrategyAuthority at h
  cases hauthorized : record.authority.authorization with
  | none =>
    rw [hauthorized] at h
    exact absurd h nofun
  | some authorization =>
    rw [hauthorized] at h
    obtain ⟨_, _, h⟩ := bind_ok.mp h
    cases hobserved : observations.account authorization.accountObservationId with
    | none =>
      rw [hobserved] at h
      exact absurd h nofun
    | some observation =>
      rw [hobserved] at h
      obtain ⟨_, hobservation, h⟩ := bind_ok.mp h
      obtain ⟨_, _, _, hcash⟩ := require_ok.mp hobservation
      iterate 4 obtain ⟨_, _, h⟩ := bind_ok.mp h
      obtain ⟨_, haggregate, _⟩ := bind_ok.mp h
      exact ⟨authorization, observation, validateAggregate_eq_ok
        hauthorized hobserved hcash hintended haggregate⟩

theorem Issued.granted {key commandHash : String}
    {command : Command} (hpost : record.postInit = .ok ())
    (h : Issued observations ledger record key commandHash command) :
    record.authority.authorization = none ∨ ∃ authorization observation,
        Granted observations ledger record authorization observation := by
  cases h with
  | increasing hroute =>
    cases hauthority : record.authority <;>
      simp_all [TradeAuthority.route, TradeAuthority.authorization]
  | strategy _ hvalid =>
    right
    exact validateStrategyAuthority_eq_ok (wellFormed_of_postInit hpost).intended hvalid

-- ==== the commitment

def TradeRow.committed (row : TradeRow) : ℤ := row.aggregate.filledQuantity + row.aggregate.reserved

theorem reserved_of_active (hwell : WellFormed record)
    (hwithin : record.filledQuantity ≤ record.intendedQuantity)
    (hstate : record.state.terminal = false) :
    (record.reserved : ℤ) = record.intendedQuantity - record.filledQuantity := by
  unfold ManualTradeRecord.reserved
  by_cases hactive : record.state.active = true
  · rw [if_pos hactive]
    omega
  · rw [if_neg hactive]
    have hfilled : record.state = .filled := by
      cases hrecord : record.state <;> simp_all [ManualOrderState.active, ManualOrderState.terminal]
    have hquantity := hwell.filled hfilled
    omega

theorem reserved_of_terminal (hstate : record.state.terminal = true) : record.reserved = 0 := by
  unfold ManualTradeRecord.reserved
  cases hrecord : record.state <;> simp_all [ManualOrderState.active, ManualOrderState.terminal]

/-- A step within the intent commits no more, unless it fills a trade that
has ended. -/
theorem Replays.committed_le {before after : ManualTradeRecord} (hbefore : WellFormed before)
    (hreplays : Replays before after) (hwithin : before.filledQuantity ≤ before.intendedQuantity)
    (hwithin' : after.filledQuantity ≤ after.intendedQuantity)
    (hended : before.state.terminal = true → after.filledQuantity ≤ before.filledQuantity) :
    (after.filledQuantity : ℤ) + after.reserved ≤ before.filledQuantity + before.reserved := by
  obtain ⟨hsteps, hpost, hterminal⟩ := validateTransition_eq_ok.mp hreplays
  have hafter := wellFormed_of_postInit hpost
  have hintended := hsteps.intendedQuantity
  cases hstate : before.state.terminal with
  | true =>
    have hstate' : after.state.terminal = true := by
      rw [(hterminal hstate).2]
      exact hstate
    rw [reserved_of_terminal hstate, reserved_of_terminal hstate']
    have hquantity := hended hstate
    omega
  | false =>
    rw [reserved_of_active hbefore hwithin hstate]
    cases hstate' : after.state.terminal with
    | true =>
      rw [reserved_of_terminal hstate']
      omega
    | false =>
      rw [reserved_of_active hafter hwithin' hstate']
      omega

-- ==== one proposal

def ofProposal (proposalId : String) (row : TradeRow) : Bool :=
  row.authority.authorization.any (·.proposalId = proposalId)

theorem fixed_ofProposal (proposalId : String) : Fixed (ofProposal proposalId) := fun _ _ => rfl

def Ledger.committed (ledger : Ledger) (proposalId : String) : ℤ :=
  ledger.weight (ofProposal proposalId) TradeRow.committed

theorem committed_eq (proposalId : String) :
    ((((ledger.proposalRows proposalId).map (·.aggregate)).map
        (·.filledQuantity)).sum
      + (((ledger.proposalRows proposalId).map (·.aggregate)).map
        (·.reserved)).sum : ℤ) = ledger.committed proposalId := by
  have hperm : (ledger.proposalRows proposalId).Perm
      (ledger.records.filter (ofProposal proposalId)) := by
    unfold Ledger.proposalRows ofProposal
    refine (sortBy_perm _ _).trans (Perm.of_eq ?_)
    exact filter_congr fun row _ => by simp
  unfold Ledger.committed Ledger.weight
  rw [Nat.cast_list_sum, Nat.cast_list_sum, ← (hperm.map _).sum_eq]
  simp only [map_map]
  exact sum_map_add.symm

/-- A step of the run keeps the trades of the proposal within their intent,
and fills none that has ended. -/
def KeepsIntent (observations : Observations) (proposalId : String)
    (command : Command) (system : System) : Prop :=
  ∀ row' ∈ (next observations command system).ledger.records, ofProposal proposalId row' = true →
      row'.filledQuantity ≤ row'.aggregate.intendedQuantity ∧
      ∀ row ∈ system.ledger.records, row.manualTradeId = row'.manualTradeId →
        row.state.terminal = true → row'.filledQuantity ≤ row.filledQuantity

structure WithinAuthority (proposalId : String) (system : System) : Prop where
  sound : SystemSound system
  within : ∀ row ∈ system.ledger.records, ofProposal proposalId row = true →
    row.filledQuantity ≤ row.aggregate.intendedQuantity
  authority : ∀ row ∈ system.ledger.records,
    ∀ authorization ∈ row.authority.authorization, authorization.proposalId = proposalId →
        system.ledger.committed proposalId ≤ authorization.recommendedQuantity

section Step

variable {observations : Observations} {proposalId : String} {system system' : System}
  {command : Command} {tradeId key eventKey commandHash : String}
  {current updated : ManualTradeRecord} {fill : Option Fill} {row : TradeRow}

theorem ofProposal_iff : ofProposal proposalId row = true ↔
    ∃ authorization ∈ row.authority.authorization, authorization.proposalId = proposalId := by
  unfold ofProposal
  cases row.authority.authorization with
  | none => simp
  | some authorization => simp

theorem mem_proposalRows : row ∈ ledger.proposalRows proposalId ↔
      row ∈ ledger.records ∧ ofProposal proposalId row = true := by
  unfold Ledger.proposalRows ofProposal
  rw [(sortBy_perm _ _).mem_iff, mem_filter]

theorem committed_congr (h : ledger'.records = ledger.records) :
    ledger'.committed proposalId = ledger.committed proposalId := by
  unfold Ledger.committed Ledger.weight
  rw [h]

variable (h : WithinAuthority proposalId system)

include h in
/-- What a creation commits was checked. -/
theorem WithinAuthority.created {record : ManualTradeRecord} {key commandHash : String}
    (hissued : Issued observations system.ledger record key commandHash command)
    (hpost : record.postInit = .ok ())
    (hcreated : Created system.ledger record key commandHash ledger') :
    WithinAuthority proposalId ⟨ledger', system.requests⟩ := by
  have hrecords : ledger'.records = system.ledger.records ++ [tradeRow record] := by
    rw [hcreated.result]
  have hfilled : record.filledQuantity = 0 :=
    ((wellFormed_of_postInit hpost).recorded hcreated.recorded).2
  have hrequests := (Change.created hissued hpost hcreated).sound h.sound
  have hcommitted : ledger'.committed proposalId = system.ledger.committed proposalId
        + if ofProposal proposalId (tradeRow record) then
            (record.intendedQuantity : ℤ)
          else 0 := by
    have hbudget : ledger'.budget (ofProposal proposalId) TradeRow.committed (fun _ _ => 0)
        = system.ledger.budget (ofProposal proposalId) TradeRow.committed (fun _ _ => 0)
          + if ofProposal proposalId (tradeRow record) then
              (tradeRow record).committed
            else 0 := hcreated.budget h.sound.ledger
    have hzero : ∀ fills : List Fill, total (·.fillId) Fill.correctionOf
        (fun _ _ => (0 : ℤ)) fills = 0 := by
      unfold total
      simp
    have hnew : (tradeRow record).committed = record.intendedQuantity := by
      unfold TradeRow.committed ManualTradeRecord.reserved
      simp [tradeRow, hcreated.recorded, ManualOrderState.active, hfilled]
    unfold Ledger.budget at hbudget
    rw [hzero, hzero, add_zero, add_zero, hnew] at hbudget
    exact hbudget
  refine ⟨hrequests, fun row hrow hkind => ?_, fun row hrow other hother hproposal => ?_⟩
  · rw [hrecords] at hrow
    cases mem_append.mp hrow with
    | inl hrow => exact h.within row hrow hkind
    | inr hrow =>
      rw [mem_singleton.mp hrow]
      exact Nat.zero_le _
  · show ledger'.committed proposalId ≤ _
    by_cases hnew : ofProposal proposalId (tradeRow record) = true
    · -- the new trade: the check has counted what the others commit
      obtain ⟨authorization, hauthorization, hid⟩ := ofProposal_iff.mp hnew
      obtain ⟨granted, observation, hgranted⟩ :=
        (hissued.granted hpost).resolve_left fun hnone => by
          rw [show (tradeRow record).authority = record.authority from rfl, hnone] at hauthorization
          cases hauthorization
      obtain rfl : granted = authorization :=
        Option.some.inj (hgranted.authorized.symm.trans hauthorization)
      have hbound : ledger'.committed proposalId ≤ granted.recommendedQuantity := by
        have hproposal := hgranted.proposal
        rw [hid] at hproposal
        rw [hcommitted, if_pos hnew, ← committed_eq]
        exact_mod_cast hproposal
      suffices hsame : other.recommendedQuantity = granted.recommendedQuantity by
        rw [hsame]
        exact hbound
      rw [hrecords] at hrow
      cases mem_append.mp hrow with
      | inl hrow =>
        refine hgranted.recommended row (mem_proposalRows.mpr ⟨hrow, ?_⟩) other ?_
        · rw [hid]
          exact ofProposal_iff.mpr ⟨other, hother, hproposal⟩
        · rw [(h.sound.ledger.trades row hrow).authority]
          exact hother
      | inr hrow =>
        rw [mem_singleton.mp hrow] at hother
        rw [Option.some.inj (hother.symm.trans hgranted.authorized)]
    · rw [hcommitted, if_neg hnew, add_zero]
      rw [hrecords] at hrow
      cases mem_append.mp hrow with
      | inl hrow => exact h.authority row hrow other hother hproposal
      | inr hrow =>
        rw [mem_singleton.mp hrow] at hother
        exact absurd (ofProposal_iff.mpr ⟨other, hother, hproposal⟩) hnew

include h in
theorem Advance.committed_le
    (hadvance : Advance system.ledger tradeId current updated fill key eventKey commandHash ledger')
    (hreplays : Replays current updated)
    (hwithin : ∀ row' ∈ ledger'.records, ofProposal proposalId row' = true →
      row'.filledQuantity ≤ row'.aggregate.intendedQuantity ∧
      ∀ row ∈ system.ledger.records, row.manualTradeId = row'.manualTradeId →
        row.state.terminal = true → row'.filledQuantity ≤ row.filledQuantity) :
    ledger'.committed proposalId ≤ system.ledger.committed proposalId := by
  have hsound := h.sound.ledger
  obtain ⟨row, hrow, hid, haggregate, hmem, _⟩ := hadvance.moved hsound hreplays
  have hweight := hadvance.weight (w := TradeRow.committed)
    (fixed_ofProposal proposalId) hsound hreplays hrow hid
  have htrade := hsound.trades row hrow
  unfold Ledger.committed
  by_cases hkind : ofProposal proposalId row = true
  · rw [if_pos hkind, if_pos hkind] at hweight
    obtain ⟨hquantity, hended⟩ := hwithin _ hmem hkind
    have hwell : WellFormed row.aggregate := by
      obtain ⟨_, hrecord, haggregate', hpost⟩ := loadTrade_none hadvance.loaded
      rw [haggregate]
      exact wellFormed_of_postInit hpost
    have hmoved := (haggregate ▸ hreplays).committed_le hwell
      (htrade.filledQuantity ▸ h.within row hrow hkind) hquantity
      fun hterminal => by
        rw [htrade.filledQuantity]
        exact hended row hrow rfl (htrade.state ▸ hterminal)
    have hmoved : (updatedRow updated row).committed ≤ row.committed := hmoved
    omega
  · rw [if_neg hkind, if_neg hkind] at hweight
    omega

include h in
theorem WithinAuthority.advance
    (hadvance : Advance system.ledger tradeId current updated fill key eventKey commandHash ledger')
    (hreplays : Replays current updated)
    (hsound : SystemSound ⟨ledger', system.requests⟩)
    (hwithin : ∀ row' ∈ ledger'.records, ofProposal proposalId row' = true →
      row'.filledQuantity ≤ row'.aggregate.intendedQuantity ∧
      ∀ row ∈ system.ledger.records, row.manualTradeId = row'.manualTradeId →
        row.state.terminal = true → row'.filledQuantity ≤ row.filledQuantity) :
    WithinAuthority proposalId ⟨ledger', system.requests⟩ := by
  refine ⟨hsound, fun row' hrow' hkind => (hwithin row' hrow' hkind).1, ?_⟩
  intro row' hrow' authorization hauthorization hproposal
  refine (hadvance.committed_le h hreplays hwithin).trans ?_
  cases hadvance.mem_records h.sound.ledger hreplays hrow' with
  | inl hmoved =>
    obtain ⟨row, hrow, _, _, rfl⟩ := hmoved
    exact h.authority row hrow authorization hauthorization hproposal
  | inr hother => exact h.authority row' hother.1 authorization hauthorization hproposal

include h in
theorem WithinAuthority.next (hkeeps : KeepsIntent observations proposalId command system) :
    WithinAuthority proposalId (next observations command system) := by
  have hsound : SystemSound (Execution.next observations command system) := h.sound.next command
  unfold KeepsIntent at hkeeps
  unfold Execution.next at hsound hkeeps ⊢
  cases hexecute : execute observations system command with
  | error e => exact h
  | ok system' =>
    rw [hexecute] at hsound hkeeps
    cases execute_eq_ok hexecute with
    | replayedCreation _ _ => exact h
    | created hissued hpost hcreated => exact h.created hissued hpost hcreated
    | confirmed _ hconfirmed =>
      have hrecords := congrArg Ledger.records hconfirmed.result
      refine ⟨hsound, fun row hrow => ?_, fun row hrow => ?_⟩
      · exact h.within row (hrecords ▸ hrow)
      · show ∀ authorization ∈ _, _ → Ledger.committed _ _ ≤ _
        rw [committed_congr hrecords]
        exact h.authority row (hrecords ▸ hrow)
    | replayedFill _ => exact h
    | filled hfilled =>
      exact h.advance hfilled.advance (replays_of_validate hfilled.transition) hsound hkeeps
    | requested _ => exact ⟨hsound, h.within, h.authority⟩
    | replayedTransition _ => exact h
    | transitioned _ htransitioned =>
      exact h.advance htransitioned.advance
        (replays_of_validate htransitioned.transition) hsound hkeeps

end Step

/-- In every state reached by steps that keep the intents: the effective
Fills of the trades of a proposal and what the active ones still reserve are
at most the quantity that each authorization of the proposal recommends. -/
theorem proposal_never_overcommitted (observations : Observations)
    (proposalId : String) (system : System)
    (h : Reach (· = .start) (next observations) (KeepsIntent observations proposalId) system)
    (row : TradeRow) (hrow : row ∈ system.ledger.proposalRows proposalId)
    (authorization : StrategyExecutionAuthorization)
    (hauthorization : authorization ∈ row.authority.authorization) :
    ((system.ledger.proposalRows proposalId).map fun row =>
        effectiveQuantity (system.ledger.fillsForTrade row.manualTradeId)).sum
      + (((system.ledger.proposalRows proposalId).filter
          (·.state.active)).map fun row => row.aggregate.intendedQuantity - row.filledQuantity).sum
      ≤ authorization.recommendedQuantity := by
  have hwithin : WithinAuthority proposalId system := by
    refine h.inv ?_ fun system command hinv hkeeps => hinv.next hkeeps
    rintro _ rfl
    exact ⟨.start, fun _ h => absurd h not_mem_nil, fun _ h => absurd h not_mem_nil⟩
  obtain ⟨hmem, hkind⟩ := mem_proposalRows.mp hrow
  obtain ⟨other, hother, hproposal⟩ := ofProposal_iff.mp hkind
  obtain rfl := Option.some.inj (hother.symm.trans hauthorization)
  have hbound := hwithin.authority row hmem other hother hproposal
  rw [← committed_eq] at hbound
  have htrades : ∀ row ∈ system.ledger.proposalRows proposalId,
      TradeSound system.ledger row := fun row hrow =>
    hwithin.sound.ledger.trades row (mem_proposalRows.mp hrow).1
  have hfilled : (system.ledger.proposalRows proposalId).map (fun row =>
        effectiveQuantity (system.ledger.fillsForTrade row.manualTradeId))
      = ((system.ledger.proposalRows proposalId).map (·.aggregate)).map
          (·.filledQuantity) := by
    rw [map_map]
    refine map_congr_left fun row hrow => ?_
    rw [← (htrades row hrow).filled]
    exact (htrades row hrow).filledQuantity.symm
  have hreserved : (((system.ledger.proposalRows proposalId).filter
        (·.state.active)).map fun row => row.aggregate.intendedQuantity - row.filledQuantity).sum
      = (((system.ledger.proposalRows proposalId).map (·.aggregate)).map
          (·.reserved)).sum := by
    have hite : ((system.ledger.proposalRows proposalId).map
          (·.aggregate)).map (·.reserved)
        = (system.ledger.proposalRows proposalId).map fun row =>
          if row.state.active then
            row.aggregate.intendedQuantity - row.filledQuantity
          else 0 := by
      rw [map_map]
      refine map_congr_left fun row hrow => ?_
      show row.aggregate.reserved = _
      unfold ManualTradeRecord.reserved
      rw [(htrades row hrow).state, (htrades row hrow).filledQuantity]
    rw [hite, sum_map_ite]
    simp
  rw [hfilled, hreserved]
  exact_mod_cast hbound

section Sample

def sampleAuthorization (authorizationId : String) (intendedQuantity : Nat)
    (replacementAuthority : Bool) (hpositive : 0 < intendedQuantity)
    (hintended : intendedQuantity ≤ 100) : StrategyExecutionAuthorization where
  authorizationId
  proposalId := "proposal"
  accountObservationId := "observation"
  accountId := "account"
  symbol := "600000.SH"
  action := .enter
  accountNav := 1000
  availableCash := 1000
  referencePrice := 1
  currentQuantity := 0
  availableQuantity := 0
  recommendedQuantity := 100
  intendedQuantity
  replacementAuthority
  decisionTime := 0
  createdAt := 0
  nav_positive := by decide +kernel
  cash_nonneg := by decide +kernel
  price_positive := unit_price
  available_le := le_rfl
  recommended_positive := by decide
  intended_positive := hpositive
  intended_le := hintended
  created_after := le_rfl

def sampleProposalTrade (manualTradeId : String)
    (authorization : StrategyExecutionAuthorization) : ManualTradeRecord :=
  { sampleTrade with
    manualTradeId
    intendedQuantity := authorization.intendedQuantity
    authority := .strategy authorization }

def sampleFirst : ManualTradeRecord :=
  sampleProposalTrade "trade" (sampleAuthorization "first" 60 false (by decide) (by decide))

def sampleReplacement : ManualTradeRecord :=
  sampleProposalTrade "replacement" (sampleAuthorization "second" 80 true (by decide) (by decide))

def sampleEvidence : StrategyEvidence := ⟨.ok (), .ok (), .ok (), .ok (), .ok (), .ok ()⟩

def sampleAccount : AccountObservation where
  accountId := "account"
  asOfTime := 0
  totalEquity := 1000
  availableCash := 1000
  cash_nonneg := by decide +kernel
  cash_le := le_rfl

def sampleObservations : Observations where
  account := fun _ => some sampleAccount
  position := fun _ _ => none

/-- The first trade is filled in part and cancelled, and what it has freed is
traded again. -/
def sampleReplacing : List Command :=
  [.createStrategyTrade sampleEvidence sampleFirst "create" "hash",
    .appendFill (sampleFill "first" 20 .execution (by decide) (FillKind.execution_ne _)) "fill" "hash",
    .markOrderState "trade" 1 .cancelled "operator" "entry" 2 "cancel" "hash",
    .transitionTrade ⟨{ sampleFirst with
          state := .cancelled
          filledQuantity := 20
          version := 2
          updatedAt := 2 }, 1, "cancel", "hash"⟩,
    .createStrategyTrade sampleEvidence sampleReplacement "replace" "hash"]

def sampleReplaced : Ledger := (run (next sampleObservations) .start sampleReplacing).ledger

end Sample

theorem proposal_never_overcommitted_sample :
    (sampleReplaced.proposalRows "proposal").map (·.filledQuantity) = [0, 20] ∧
      ((sampleReplaced.proposalRows "proposal").map fun row =>
          effectiveQuantity (sampleReplaced.fillsForTrade row.manualTradeId)).sum
        + (((sampleReplaced.proposalRows "proposal").filter
            (·.state.active)).map fun row =>
              row.aggregate.intendedQuantity - row.filledQuantity).sum
        ≤ 100 := by
  have hstart : Reach (· = .start) (next sampleObservations)
      (KeepsIntent sampleObservations "proposal") .start := .start rfl
  have hreach := hstart.run sampleReplacing (by
    unfold sampleReplacing
    simp only [Along, KeepsIntent, and_true]
    decide +kernel)
  exact ⟨by decide +kernel, proposal_never_overcommitted sampleObservations
    "proposal" _ hreach (tradeRow sampleReplacement) (by decide +kernel)
    (sampleAuthorization "second" 80 true (by decide) (by decide)) rfl⟩

end MarketRegimeAlpha.Execution
