/-
The quantity that a Strategy order recommends, and the authorization around it.

# The size

A BUY recommends the whole lots that its budget pays for, a REDUCE the smaller of
those and of the whole lots available, an EXIT what is available
(`CreateArguments.Sized`). The constructor computes the notional, the residual and
the divisibility again from the values, and comes to what `create` has stored.
-/
import MarketRegimeAlpha.Lib.Lots
import MarketRegimeAlpha.Execution.StrategyIntent

namespace MarketRegimeAlpha.Execution.StrategyIntent

open Lib
open Position (Instant)

-- ==== the size

theorem AuthorizationValues.validateQuantities_ok {values : AuthorizationValues}
    (hpositive : 0 < values.recommendedQuantity)
    (hintended : values.intendedQuantity = values.recommendedQuantity)
    (hlots : values.action ∈ buyActions ++ ["REDUCE"] →
      Int.fmod values.recommendedQuantity values.lotSize = 0)
    (hreason : values.overrideReason = none) :
    values.validateQuantities = .ok () := by
  unfold validateQuantities
  simp only [bind_ok, require_ok]
  refine ⟨(), ?_, (), hintended.le, (), ?_, (), fun h => h.2.1 hintended, (), ?_, ?_⟩
  · rw [hintended, min_self]
    exact hpositive
  · rw [hintended]
    exact hlots
  · rw [hreason]
    exact iff_of_false (fun h => h hintended) Bool.false_ne_true
  · rw [hreason]
    rfl

namespace CreateArguments

variable {arguments : CreateArguments}

theorem divide_ok {x y : ℚ} (hy : 0 < y) : divide x y = .ok (x / y) := if_pos hy.ne'

theorem byWeight_eq (hprice : 0 < arguments.referencePrice) (hlot : 0 < arguments.lotSize) :
    arguments.byWeight = .ok (⌊arguments.executableNotional
      / arguments.referencePrice / (arguments.lotSize : ℚ)⌋ * arguments.lotSize) := by
  unfold byWeight
  rw [divide_ok hprice, ok_bind, divide_ok (Int.cast_pos.mpr hlot), ok_bind]
  rfl

/-- What is recommended, and what `create` stores with it. -/
structure Sized (arguments : CreateArguments) : Prop where
  buy : arguments.action ∈ buyActions → ∃ recommended, arguments.recommended = .ok recommended ∧
      IsGreatest (lotsWithin arguments.lotSize fun quantity =>
          quantity * arguments.referencePrice
            ≤ min (|arguments.acceptedWeight| * arguments.accountNav) arguments.availableCash)
        recommended
  reduce : arguments.action = "REDUCE" → ∃ recommended, arguments.recommended = .ok recommended ∧
      IsGreatest (lotsWithin arguments.lotSize fun quantity =>
          quantity * arguments.referencePrice ≤ |arguments.acceptedWeight| * arguments.accountNav
            ∧ quantity ≤ arguments.availableQuantity)
        recommended
  exit : arguments.action = "EXIT" → arguments.recommended = .ok arguments.availableQuantity
  checked : ∀ recommended, arguments.recommended = .ok recommended →
    0 < recommended → arguments.operatorQuantity = none → arguments.overrideReason = none →
      ∃ values, arguments.values = .ok values ∧ values.recommendedQuantity = recommended ∧
        values.validateQuantities = .ok () ∧ values.validateNotional = .ok () ∧
        values.validateResidual = .ok ()

variable (hprice : 0 < arguments.referencePrice) (hlot : 0 < arguments.lotSize)

include hprice hlot

theorem recommended_buy (haction : arguments.action ∈ buyActions) :
    ∃ recommended, arguments.recommended = .ok recommended ∧
      IsGreatest (lotsWithin arguments.lotSize fun quantity =>
          quantity * arguments.referencePrice
            ≤ min (|arguments.acceptedWeight| * arguments.accountNav) arguments.availableCash)
        recommended := by
  refine ⟨_, ?_, isGreatest_budget hlot hprice _⟩
  unfold recommended
  rw [byWeight_eq hprice hlot, ok_bind, if_pos haction]
  unfold executableNotional authorizedNotional
  rw [if_pos haction]
  rfl

theorem recommended_reduce (haction : arguments.action = "REDUCE") :
    ∃ recommended, arguments.recommended = .ok recommended ∧
      IsGreatest (lotsWithin arguments.lotSize fun quantity =>
          quantity * arguments.referencePrice ≤ |arguments.acceptedWeight| * arguments.accountNav
            ∧ quantity ≤ arguments.availableQuantity)
        recommended := by
  have hsell : arguments.action ∉ buyActions := by
    rw [haction]
    decide
  refine ⟨_, ?_, isGreatest_min ?_ (fun hle h => hle.trans h)
    (isGreatest_budget hlot hprice _) (isGreatest_quantity hlot _)⟩
  · unfold recommended
    rw [byWeight_eq hprice hlot, ok_bind, if_neg hsell, if_pos haction]
    unfold executableNotional authorizedNotional
    rw [if_neg hsell, Int.fdiv_eq_ediv_of_nonneg _ hlot.le]
    rfl
  · intro x y hle h
    exact (mul_le_mul_of_nonneg_right (Int.cast_le.mpr hle) hprice.le).trans h

theorem recommended_exit (haction : arguments.action = "EXIT") :
    arguments.recommended = .ok arguments.availableQuantity := by
  have hsell : arguments.action ∉ buyActions := by
    rw [haction]
    decide
  have hexit : arguments.action ≠ "REDUCE" := by
    rw [haction]
    decide
  unfold recommended
  rw [byWeight_eq hprice hlot, ok_bind, if_neg hsell, if_neg hexit, if_pos haction]
  rfl

theorem recommended_lots {recommended : Int} (h : arguments.recommended = .ok recommended)
    (haction : arguments.action ∈ buyActions ++ ["REDUCE"]) :
    Int.fmod recommended arguments.lotSize = 0 := by
  refine Int.fmod_eq_zero_of_dvd ?_
  cases List.mem_append.mp haction with
  | inl hbuy =>
    obtain ⟨greatest, hgreatest, hin⟩ := recommended_buy hprice hlot hbuy
    obtain rfl := Except.ok.inj (h.symm.trans hgreatest)
    exact hin.1.1
  | inr hreduce =>
    obtain ⟨greatest, hgreatest, hin⟩ :=
      recommended_reduce hprice hlot (List.mem_singleton.mp hreduce)
    obtain rfl := Except.ok.inj (h.symm.trans hgreatest)
    exact hin.1.1

theorem sized : arguments.Sized := by
  constructor
  case buy => exact recommended_buy hprice hlot
  case reduce => exact recommended_reduce hprice hlot
  case exit => exact recommended_exit hprice hlot
  case checked =>
    intro recommended hrecommended hpositive hoperator hreason
    have hvalues : ∃ values, arguments.values = .ok values := by
      unfold values
      rw [hrecommended]
      exact ⟨_, rfl⟩
    obtain ⟨values, hvalues⟩ := hvalues
    have hbuilt := hvalues
    unfold CreateArguments.values at hbuilt
    rw [hrecommended, ok_bind, hoperator] at hbuilt
    obtain rfl := pure_ok.mp hbuilt
    refine ⟨_, hvalues, rfl, ?_, require_true rfl _, require_true rfl _⟩
    exact AuthorizationValues.validateQuantities_ok hpositive rfl
      (recommended_lots hprice hlot hrecommended) hreason

end CreateArguments

-- ==== what is accepted

section Accepted

variable {canonicalHash : Hashed → String}

/-- What the constructor has checked of the amounts and the quantities. -/
structure Accepted (authorization : StrategyExecutionAuthorization) : Prop where
  nav : 0 < authorization.accountNav
  cash : 0 ≤ authorization.availableCash
  price : 0 < authorization.referencePrice
  available : 0 ≤ authorization.availableQuantity
  available_le : authorization.availableQuantity ≤ authorization.currentQuantity
  intended : 0 < authorization.intendedQuantity
  intended_le : authorization.intendedQuantity ≤ authorization.recommendedQuantity
  created : authorization.decisionTime ≤ authorization.createdAt

structure Passes (canonicalHash : Hashed → String)
    (authorization : StrategyExecutionAuthorization) : Prop where
  schema : authorization.schemaVersion = legacySchema ∨ authorization.schemaVersion = currentSchema
  hash : requireSha256 "authorization_hash" authorization.authorizationHash = .ok ()
  account : authorization.validateAccount = .ok ()
  quantities : authorization.validateQuantities = .ok ()
  times : authorization.validateTimes = .ok ()
  notional : authorization.validateNotional = .ok ()
  owners : authorization.validateOwners canonicalHash = .ok ()
  residual : authorization.validateResidual = .ok ()
  identity : authorization.validateIdentity canonicalHash = .ok ()

structure AuthorizationValues.WholeSeconds (values : AuthorizationValues) : Prop where
  observed : ∀ instant ∈ values.priceObservedAt, 1000000 ∣ instant
  available : ∀ instant ∈ values.priceAvailableAt, 1000000 ∣ instant
  decision : 1000000 ∣ values.decisionTime
  created : 1000000 ∣ values.createdAt

namespace StrategyExecutionAuthorization

variable {authorization : StrategyExecutionAuthorization}

theorem postInit_ok : authorization.postInit canonicalHash = .ok ()
    ↔ Passes canonicalHash authorization := by
  unfold postInit
  simp only [bind_ok, require_ok]
  constructor
  · rintro ⟨_, hschema, _, hhash, _, haccount, _, hquantities, _, htimes, _, hnotional,
      _, howners, _, hresidual, hidentity⟩
    exact ⟨hschema, hhash, haccount, hquantities, htimes, hnotional, howners, hresidual, hidentity⟩
  · intro h
    exact ⟨(), h.schema, (), h.hash, (), h.account, (), h.quantities, (), h.times, (),
      h.notional, (), h.owners, (), h.residual, h.identity⟩

variable (h : authorization.postInit canonicalHash = .ok ())

include h in
theorem accepted : Accepted authorization := by
  have hpasses := postInit_ok.mp h
  have haccount := hpasses.account
  unfold AuthorizationValues.validateAccount at haccount
  simp only [bind_ok, require_ok] at haccount
  obtain ⟨_, _, _, _, _, _, _, _, _, _, _, hamounts, _, hposition, _, havailable, _⟩ := haccount
  push Not at hamounts
  have hquantities := hpasses.quantities
  unfold AuthorizationValues.validateQuantities at hquantities
  simp only [bind_ok, require_ok] at hquantities
  obtain ⟨_, hpositive, _, hintended, _⟩ := hquantities
  exact ⟨hamounts.1, hamounts.2.1, hamounts.2.2, (le_min_iff.mp hposition).2, havailable,
    (lt_min_iff.mp hpositive).2, hintended, require_ok.mp hpasses.times⟩

def toSeconds (authorization : StrategyExecutionAuthorization) :
    StrategyExecutionAuthorization :=
  { authorization with
    priceObservedAt := authorization.priceObservedAt.map fun instant =>
      fromisoformat (canonicalDatetime instant)
    priceAvailableAt := authorization.priceAvailableAt.map fun instant =>
      fromisoformat (canonicalDatetime instant)
    decisionTime := fromisoformat (canonicalDatetime authorization.decisionTime)
    createdAt := fromisoformat (canonicalDatetime authorization.createdAt) }

theorem canonicalDatetime_fromisoformat (second : Second) :
    canonicalDatetime (fromisoformat second) = second :=
  Int.mul_ediv_cancel _ (by decide)

theorem toSecond_mono {a b : Instant} (h : a ≤ b) :
    fromisoformat (canonicalDatetime a) ≤ fromisoformat (canonicalDatetime b) :=
  Int.mul_le_mul_of_nonneg_right (Int.ediv_le_ediv (by decide) h) (by decide)

theorem toSeconds_payload (authorization : StrategyExecutionAuthorization) :
    authorization.toSeconds.authorizationPayload = authorization.authorizationPayload := by
  unfold AuthorizationValues.authorizationPayload toSeconds
  simp only [canonicalDatetime_fromisoformat, Option.map_map, Function.comp_def]

theorem toSeconds_owners (h : authorization.validateOwners canonicalHash = .ok ()) :
    authorization.toSeconds.validateOwners canonicalHash = .ok () := by
  unfold AuthorizationValues.validateOwners at h ⊢
  by_cases hlegacy : authorization.schemaVersion = legacySchema
  · rw [if_pos hlegacy] at h
    rw [if_pos (show authorization.toSeconds.schemaVersion = legacySchema from hlegacy)]
    obtain ⟨hreconciliation, hsource, hobserved, havailable, hprice⟩ := require_ok.mp h
    refine require_true ⟨hreconciliation, hsource, ?_, ?_, ?_⟩ _
    · exact congrArg (Option.map _) hobserved
    · exact congrArg (Option.map _) havailable
    · refine Eq.trans hprice ?_
      unfold legacyPriceReference toSeconds
      simp only [canonicalDatetime_fromisoformat]
  · rw [if_neg hlegacy] at h
    rw [if_neg (show ¬ authorization.toSeconds.schemaVersion = legacySchema from hlegacy)]
    obtain ⟨_, hreconciliation, h⟩ := bind_ok.mp h
    obtain ⟨_, hkind, h⟩ := bind_ok.mp h
    obtain ⟨_, hsource, h⟩ := bind_ok.mp h
    refine bind_ok.mpr ⟨(), require_ok.mpr (require_ok.mp hreconciliation),
      bind_ok.mpr ⟨(), require_ok.mpr (require_ok.mp hkind),
        bind_ok.mpr ⟨(), require_ok.mpr (require_ok.mp hsource), ?_⟩⟩⟩
    split at h
    next observedAt availableAt hobserved havailable =>
      have hobserved' : authorization.toSeconds.priceObservedAt
          = some (fromisoformat (canonicalDatetime observedAt)) :=
        congrArg (Option.map _) hobserved
      have havailable' : authorization.toSeconds.priceAvailableAt
          = some (fromisoformat (canonicalDatetime availableAt)) :=
        congrArg (Option.map _) havailable
      have heligible := require_ok.mp h
      push Not at heligible
      rw [hobserved', havailable']
      refine require_true ?_ _
      push Not
      exact ⟨toSecond_mono heligible.1, toSecond_mono heligible.2.1, toSecond_mono heligible.2.2⟩
    next => cases h

include h in
theorem toSeconds_postInit : authorization.toSeconds.postInit canonicalHash = .ok () := by
  have hpasses := postInit_ok.mp h
  refine postInit_ok.mpr ?_
  constructor
  case schema => exact hpasses.schema
  case hash => exact hpasses.hash
  case account => exact hpasses.account
  case quantities => exact hpasses.quantities
  case times => exact require_true (toSecond_mono (require_ok.mp hpasses.times)) _
  case notional => exact hpasses.notional
  case owners => exact toSeconds_owners hpasses.owners
  case residual => exact hpasses.residual
  case identity =>
    have hidentity := hpasses.identity
    unfold validateIdentity at hidentity ⊢
    rw [toSeconds_payload]
    exact hidentity

include h in
theorem fromCanonicalDict_toCanonicalDict (hlegacy : ¬ (authorization.schemaVersion = legacySchema
      ∧ authorization.replacementAuthority = true)) :
    fromCanonicalDict canonicalHash authorization.toCanonicalDict
      = .ok authorization.toSeconds := by
  have hread : fromCanonicalDict canonicalHash authorization.toCanonicalDict
      = construct canonicalHash authorization.toSeconds := by
    unfold fromCanonicalDict toCanonicalDict AuthorizationValues.authorizationPayload toSeconds
    by_cases hschema : authorization.schemaVersion = legacySchema
    · have hreplacement : authorization.replacementAuthority = false :=
        Bool.eq_false_iff.mpr fun htrue => hlegacy ⟨hschema, htrue⟩
      have howners := (postInit_ok.mp h).owners
      unfold AuthorizationValues.validateOwners at howners
      rw [if_pos hschema] at howners
      obtain ⟨hreconciliation, hsource, hobserved, havailable, _⟩ := require_ok.mp howners
      simp only [if_pos hschema, hreplacement, hreconciliation, hsource, hobserved,
        havailable, Option.map_none, Option.getD_none]
    · simp only [if_neg hschema, Option.map_map, Function.comp_def, Option.getD_some]
  rw [hread]
  exact bind_ok.mpr ⟨(), toSeconds_postInit h, rfl⟩

theorem toSeconds_eq (h : authorization.WholeSeconds) :
    authorization.toSeconds = authorization := by
  have hwhole : ∀ instant : Instant, 1000000 ∣ instant →
      fromisoformat (canonicalDatetime instant) = instant :=
    fun instant hdvd => Int.ediv_mul_cancel hdvd
  have hmap : ∀ time : Option Instant, (∀ instant ∈ time, 1000000 ∣ instant) →
      time.map (fun instant => fromisoformat (canonicalDatetime instant)) = time := by
    intro time htime
    cases time with
    | none => rfl
    | some instant => exact congrArg some (hwhole instant (htime instant rfl))
  unfold toSeconds
  rw [hmap _ h.observed, hmap _ h.available, hwhole _ h.decision, hwhole _ h.created]

end StrategyExecutionAuthorization

end Accepted

/-- What `create` returns has the values it computed, and is accepted. -/
theorem CreateArguments.create_ok {canonicalHash : Hashed → String}
    {arguments : CreateArguments} {authorization : StrategyExecutionAuthorization}
    (h : arguments.create canonicalHash = .ok authorization) :
    arguments.values = .ok authorization.toAuthorizationValues ∧
      authorization.postInit canonicalHash = .ok () := by
  obtain ⟨values, hvalues, hconstruct⟩ := bind_ok.mp h
  obtain ⟨_, hpost, hresult⟩ := bind_ok.mp hconstruct
  obtain rfl := pure_ok.mp hresult
  exact ⟨hvalues, hpost⟩

-- ==== the main result

/-- **Strategy order sizing.** With a positive price and lot size: a BUY recommends
the greatest number of whole lots that its notional and the cash pay for, a REDUCE
the greatest that its notional and the available quantity allow, an EXIT the
available quantity; where that is positive and neither a quantity nor a reason of the
operator is given, every check of the constructor on quantities, lots, override,
notional and residual passes. Whatever is accepted has a positive intended quantity
that is at most the recommended one, and unless it is of version 1 with replacement
authority, what is read back from what is written of it is accepted and is the
authorization to the second: the same one where its times are whole seconds. -/
theorem strategy_order_sizing (canonicalHash : Hashed → String) :
    (∀ arguments : CreateArguments, 0 < arguments.referencePrice →
      0 < arguments.lotSize → arguments.Sized) ∧
    ∀ authorization : StrategyExecutionAuthorization,
      authorization.postInit canonicalHash = .ok () →
      0 < authorization.intendedQuantity ∧
      authorization.intendedQuantity ≤ authorization.recommendedQuantity ∧
      (¬ (authorization.schemaVersion = legacySchema ∧ authorization.replacementAuthority = true) →
        fromCanonicalDict canonicalHash authorization.toCanonicalDict = .ok authorization.toSeconds
          ∧ (authorization.WholeSeconds → authorization.toSeconds = authorization)) := by
  refine ⟨fun arguments => CreateArguments.sized, fun authorization h => ?_⟩
  have haccepted := StrategyExecutionAuthorization.accepted h
  exact ⟨haccepted.intended, haccepted.intended_le, fun hlegacy =>
    ⟨StrategyExecutionAuthorization.fromCanonicalDict_toCanonicalDict h hlegacy,
      StrategyExecutionAuthorization.toSeconds_eq⟩⟩

section Sample

def sampleDigest : String :=
  "sha256:0000000000000000000000000000000000000000000000000000000000000000"

def sampleReference (referenceKind : String) : RuntimeArtifactReference :=
  ⟨referenceKind, "artifact", sampleDigest⟩

def sampleEntry (operatorQuantity : Option Int) (overrideReason : Option String)
    (decisionTime : Instant) : CreateArguments where
  portfolioDecisionReference := sampleReference "PORTFOLIO_DECISION"
  strategyVersionReference := sampleReference "STRATEGY_VERSION"
  proposalReference := sampleReference "STRATEGY_PROPOSAL"
  accountObservationReference := sampleReference "ACCOUNT_OBSERVATION"
  accountReconciliationReference := sampleReference "ACCOUNT_RECONCILIATION"
  tradingCalendarReference := sampleReference "TRADING_CALENDAR"
  priceReference := sampleReference "CANONICAL_MARKET_BAR"
  priceSourceReference := sampleReference "DATASET"
  priceObservedAt := 0
  priceAvailableAt := 0
  accountId := "account"
  symbol := "600000.SH"
  action := "ENTER"
  acceptedWeight := 1 / 2
  accountNav := 10000
  availableCash := 4000
  referencePrice := 10
  currentQuantity := 0
  availableQuantity := 0
  lotSize := 100
  operatorQuantity
  overrideReason
  replacementAuthority := false
  decisionTime
  createdAt := 2000000

def sampleLegacy : StrategyExecutionAuthorization where
  portfolioDecisionReference := sampleReference "PORTFOLIO_DECISION"
  strategyVersionReference := sampleReference "STRATEGY_VERSION"
  proposalReference := sampleReference "STRATEGY_PROPOSAL"
  accountObservationReference := sampleReference "ACCOUNT_OBSERVATION"
  accountReconciliationReference := none
  tradingCalendarReference := sampleReference "TRADING_CALENDAR"
  priceReference := ⟨"STRATEGY_REFERENCE_PRICE",
    "strategy-reference-price:" ++ digestTail sampleDigest, sampleDigest⟩
  priceSourceReference := none
  priceObservedAt := none
  priceAvailableAt := none
  accountId := "account"
  symbol := "600000.SH"
  action := "ENTER"
  acceptedWeight := 1 / 2
  accountNav := 10000
  availableCash := 4000
  referencePrice := 10
  currentQuantity := 0
  availableQuantity := 0
  lotSize := 100
  authorizedNotional := 5000
  recommendedQuantity := 400
  intendedQuantity := 400
  residualCash := 0
  overrideReason := none
  replacementAuthority := true
  decisionTime := 0
  createdAt := 0
  schemaVersion := legacySchema
  authorizationId := "strategy-execution-authorization:" ++ digestTail sampleDigest
  authorizationHash := sampleDigest

end Sample

/-- What is read back has its times to the second, and of version 1 no replacement
authority. -/
theorem fromCanonicalDict_ok {canonicalHash : Hashed → String}
    {authorization result : StrategyExecutionAuthorization}
    (h : fromCanonicalDict canonicalHash authorization.toCanonicalDict = .ok result) :
    1000000 ∣ result.decisionTime ∧ (authorization.schemaVersion = legacySchema →
        result.replacementAuthority = false) := by
  obtain ⟨_, _, hresult⟩ := bind_ok.mp h
  obtain rfl := pure_ok.mp hresult
  refine ⟨Int.dvd_mul_left _ _, fun hlegacy => ?_⟩
  show Option.getD (if authorization.schemaVersion = legacySchema then none
    else some authorization.replacementAuthority) false = false
  rw [if_pos hlegacy]
  rfl

/-- A reason without a quantity is refused though 400 are recommended; a decision in
the middle of a second is accepted and not read back as it was; nor is an
authorization of version 1 with replacement authority. -/
theorem strategy_order_sizing_limits : (sampleEntry none (some "reason") 0).recommended = .ok 400 ∧
      (sampleEntry none (some "reason") 0).create (fun _ => sampleDigest)
        = .error (.valueError "operator override quantity and reason must be paired") ∧
      (∃ authorization, (sampleEntry none none 1500000).create (fun _ => sampleDigest)
            = .ok authorization ∧
          fromCanonicalDict (fun _ => sampleDigest) authorization.toCanonicalDict
            ≠ .ok authorization) ∧
      sampleLegacy.postInit (fun _ => sampleDigest) = .ok () ∧
      fromCanonicalDict (fun _ => sampleDigest) sampleLegacy.toCanonicalDict
        ≠ .ok sampleLegacy := by
  refine ⟨by decide +kernel, by decide +kernel, ?_, by decide +kernel, fun hread =>
    absurd ((fromCanonicalDict_ok hread).2 rfl) (by decide)⟩
  obtain ⟨authorization, hcreate⟩ : ∃ authorization,
      (sampleEntry none none 1500000).create (fun _ => sampleDigest) = .ok authorization :=
    exists_of_isOk (by decide +kernel)
  refine ⟨authorization, hcreate, fun hread => ?_⟩
  obtain ⟨_, _, hvalues⟩ := bind_ok.mp (CreateArguments.create_ok hcreate).1
  have hwhole := (fromCanonicalDict_ok hread).1
  rw [← pure_ok.mp hvalues] at hwhole
  have hwhole : (1000000 : ℤ) ∣ 1500000 := hwhole
  omega

/-- The entry without an operator is accepted. -/
theorem strategy_order_sizing_entry : (sampleEntry none none 1000000).Sized ∧
      ∃ authorization, (sampleEntry none none 1000000).create (fun _ => sampleDigest)
          = .ok authorization ∧
        fromCanonicalDict (fun _ => sampleDigest) authorization.toCanonicalDict
          = .ok authorization := by
  obtain ⟨hsized, hread⟩ := strategy_order_sizing fun _ => sampleDigest
  refine ⟨hsized _ (by decide +kernel) (by decide), ?_⟩
  obtain ⟨authorization, hcreate⟩ : ∃ authorization,
      (sampleEntry none none 1000000).create (fun _ => sampleDigest) = .ok authorization :=
    exists_of_isOk (by decide +kernel)
  obtain ⟨hvalues, hpost⟩ := CreateArguments.create_ok hcreate
  have hvalues := pure_ok.mp hvalues
  have hwhole : authorization.WholeSeconds := by
    rw [← hvalues]
    constructor
    case observed =>
      rintro instant ⟨⟩
      exact dvd_zero _
    case available =>
      rintro instant ⟨⟩
      exact dvd_zero _
    case decision => exact dvd_refl 1000000
    case created => exact Int.dvd_mul_left 2 1000000
  have hcurrent : authorization.schemaVersion ≠ legacySchema := by
    rw [← hvalues]
    decide
  obtain ⟨hback, hsame⟩ := (hread authorization hpost).2.2 fun hlegacy => hcurrent hlegacy.1
  exact ⟨authorization, hcreate, hback.trans (congrArg _ (hsame hwhole))⟩

end MarketRegimeAlpha.Execution.StrategyIntent
