/-
When an account is reconciled.

# The two sides

Each side gives every symbol a holding, and a symbol that a side does not list holds
nothing there (`holdingOf`). `Reconciles` compares the two holdings of every symbol.
The code compares the rows instead, after it has dropped the fill-derived rows of
quantity zero. So the account is reconciled when the holdings agree with those rows
dropped (`ReconcilesHeld`), and no row of the account is of quantity zero
(`reconciled_iff`), which `Reconciles` does not ask for.
-/
import MarketRegimeAlpha.DecisionSystem.Reconciliation

namespace MarketRegimeAlpha.DecisionSystem

open Lib List

-- ==== what is agreed

structure Holding where
  total : Nat
  (available frozen : Option Nat)
  averageCost : Option ℚ

namespace Holding

/-- What a symbol holds that is not listed. -/
def nothing : Holding := ⟨0, some 0, some 0, none⟩

/-- Two holdings of a symbol are equal, and their costs within the tolerance. -/
structure Agrees (tolerance : ℚ) (manual fills : Holding) : Prop where
  total : manual.total = fills.total
  available : manual.available = fills.available
  frozen : manual.frozen = fills.frozen
  cost : 0 < fills.total → ∃ fillCost ∈ fills.averageCost,
    ∃ manualCost ∈ manual.averageCost, |fillCost - manualCost| ≤ tolerance

end Holding

def ManualPositionObservation.holding (row : ManualPositionObservation) : Holding :=
  ⟨row.totalQuantity, some row.availableQuantity, some row.frozenQuantity, row.averageCost⟩

def FillDerivedPositionReference.holding (row : FillDerivedPositionReference) :
    Holding :=
  ⟨row.totalQuantity, row.availableQuantity, row.frozenQuantity, row.averageCost⟩

def ManualAccountObservation.holdingOf (observation : ManualAccountObservation)
    (symbol : String) : Holding :=
  ((observation.positions.find? (·.symbol = symbol)).map
    ManualPositionObservation.holding).getD .nothing

def holdingOf (positions : List FillDerivedPositionReference) (symbol : String) :
    Holding :=
  ((positions.find? (·.symbol = symbol)).map FillDerivedPositionReference.holding).getD .nothing

namespace ReconcileAccount

structure MoneyAgrees (call : ReconcileAccount) : Prop where
  equity : ∃ equity ∈ call.authoritativeTotalEquity,
    |equity - call.observation.totalEquity| ≤ call.tolerance.equityTolerance
  cash : ∃ available ∈ call.authoritativeAvailableCash, ∃ frozen ∈ call.authoritativeFrozenCash,
      |available + frozen - (call.observation.availableCash
        + call.observation.frozenCash)| ≤ call.tolerance.cashTolerance

def Complete (call : ReconcileAccount) : Prop :=
  call.fillLedgerComplete = true ∧ ∀ item ∈ call.positions, item.complete = true

/-- The account agrees with the holdings of `positions`. -/
structure ReconcilesWith (call : ReconcileAccount)
    (positions : List FillDerivedPositionReference) : Prop where
  complete : call.Complete
  money : call.MoneyAgrees
  holdings : ∀ symbol, Holding.Agrees call.tolerance.averageCostTolerance
    (call.observation.holdingOf symbol) (holdingOf positions symbol)

/-- The account and the fills agree on every symbol. -/
def Reconciles (call : ReconcileAccount) : Prop := call.ReconcilesWith call.positions

/-- The fill-derived rows of a positive quantity. -/
def held (call : ReconcileAccount) : List FillDerivedPositionReference :=
  call.positions.filter fun item => 0 < item.totalQuantity

/-- They agree when the fill-derived rows of quantity zero hold nothing. -/
def ReconcilesHeld (call : ReconcileAccount) : Prop := call.ReconcilesWith call.held

def NoZeroRows (call : ReconcileAccount) : Prop :=
  ∀ item ∈ call.observation.positions, item.totalQuantity ≠ 0

/-- Every fill-derived row of quantity zero says that nothing of it is available and
nothing is frozen. -/
def ZeroRowsNamed (call : ReconcileAccount) : Prop :=
  ∀ item ∈ call.positions, item.totalQuantity = 0 →
    item.availableQuantity = some 0 ∧ item.frozenQuantity = some 0

end ReconcileAccount

-- ==== what is appended

section Appended

variable {nfc : String → String} {ds : List ReconciliationDifference}

theorem appended_ne_nil {x : Except Raised ReconciliationDifference}
    (h : (do let difference ← x; pure [difference]) = Except.ok ds) : ds ≠ [] := by
  simp only [bind_ok, pure_ok] at h
  obtain ⟨difference, -, rfl⟩ := h
  exact cons_ne_nil difference []

theorem moneyDifference_nil {differenceType : ReconciliationDifferenceType}
    {expected observed tolerance : ℚ} {reason : String}
    (h : moneyDifference nfc differenceType expected observed tolerance reason = .ok ds) :
    ds = [] ↔ |expected - observed| ≤ tolerance := by
  unfold moneyDifference at h
  by_cases hdelta : tolerance < |expected - observed|
  · rw [if_pos hdelta] at h
    exact iff_of_false (appended_ne_nil h) (not_le.mpr hdelta)
  · rw [if_neg hdelta, pure_ok] at h
    exact iff_of_true h.symm (not_lt.mp hdelta)

namespace ReconcileAccount

variable {call : ReconcileAccount}

theorem equityDifferences_nil (h : call.equityDifferences nfc = .ok ds) :
    ds = [] ↔ ∃ equity ∈ call.authoritativeTotalEquity,
      |equity - call.observation.totalEquity| ≤ call.tolerance.equityTolerance := by
  unfold equityDifferences at h
  cases hequity : call.authoritativeTotalEquity with
  | none =>
    rw [hequity] at h
    exact iff_of_false (appended_ne_nil h) (by simp)
  | some equity =>
    rw [hequity] at h
    rw [moneyDifference_nil h]
    simp

theorem cashDifferences_nil (h : call.cashDifferences nfc = .ok ds) :
    ds = [] ↔ ∃ available ∈ call.authoritativeAvailableCash,
      ∃ frozen ∈ call.authoritativeFrozenCash,
        |available + frozen - (call.observation.availableCash
          + call.observation.frozenCash)| ≤ call.tolerance.cashTolerance := by
  unfold cashDifferences at h
  cases havailable : call.authoritativeAvailableCash with
  | none =>
    rw [havailable] at h
    exact iff_of_false (appended_ne_nil h) (by simp)
  | some available =>
    cases hfrozen : call.authoritativeFrozenCash with
    | none =>
      rw [havailable, hfrozen] at h
      exact iff_of_false (appended_ne_nil h) (by simp)
    | some frozen =>
      rw [havailable, hfrozen] at h
      rw [moneyDifference_nil h]
      simp

theorem ledgerDifferences_nil (h : call.ledgerDifferences nfc = .ok ds) :
    ds = [] ↔ call.Complete := by
  unfold ledgerDifferences at h
  by_cases hincomplete : call.fillLedgerComplete = false
      ∨ ∃ item ∈ call.positions, item.complete = false
  · rw [if_pos hincomplete] at h
    refine iff_of_false (appended_ne_nil h) fun hcomplete => ?_
    rcases hincomplete with hledger | ⟨item, hitem, hopen⟩
    · rw [hcomplete.1] at hledger
      cases hledger
    · rw [hcomplete.2 item hitem] at hopen
      cases hopen
  · rw [if_neg hincomplete, pure_ok] at h
    push Not at hincomplete
    refine iff_of_true h.symm ⟨?_, fun item hitem => ?_⟩
    · exact Bool.eq_true_of_not_eq_false hincomplete.1
    · exact Bool.eq_true_of_not_eq_false (hincomplete.2 item hitem)

end ReconcileAccount

-- ==== one listed symbol

variable {symbol : String} {system : FillDerivedPositionReference}
  {manual : ManualPositionObservation} {tolerance : ReconciliationTolerance}

theorem totalDifferences_nil (h : totalDifferences nfc symbol system manual = .ok ds) :
    ds = [] ↔ manual.totalQuantity = system.totalQuantity := by
  unfold totalDifferences at h
  by_cases htotal : system.totalQuantity ≠ manual.totalQuantity
  · rw [if_pos htotal] at h
    simp only [bind_ok, pure_ok] at h
    obtain ⟨quantity, -, suspected, -, rfl⟩ := h
    exact iff_of_false (cons_ne_nil _ _) (Ne.symm htotal)
  · rw [if_neg htotal, pure_ok] at h
    push Not at htotal
    exact iff_of_true h.symm htotal.symm

theorem unequalDifference_nil {differenceType : ReconciliationDifferenceType} {a b : Nat}
    {reason : String} (h : unequalDifference nfc differenceType symbol a b reason = .ok ds) :
    ds = [] ↔ b = a := by
  unfold unequalDifference at h
  by_cases hne : a ≠ b
  · rw [if_pos hne] at h
    exact iff_of_false (appended_ne_nil h) (Ne.symm hne)
  · rw [if_neg hne, pure_ok] at h
    push Not at hne
    exact iff_of_true h.symm hne.symm

theorem partDifferences_nil (h : partDifferences nfc symbol system manual = .ok ds) :
    ds = [] ↔ some manual.availableQuantity = system.availableQuantity
      ∧ some manual.frozenQuantity = system.frozenQuantity := by
  unfold partDifferences at h
  cases havailable : system.availableQuantity with
  | none =>
    rw [havailable] at h
    exact iff_of_false (appended_ne_nil h) (by simp)
  | some available =>
    cases hfrozen : system.frozenQuantity with
    | none =>
      rw [havailable, hfrozen] at h
      exact iff_of_false (appended_ne_nil h) (by simp)
    | some frozen =>
      rw [havailable, hfrozen] at h
      simp only [bind_ok, pure_ok] at h
      obtain ⟨ofAvailable, h₁, ofFrozen, h₂, rfl⟩ := h
      rw [append_eq_nil_iff, unequalDifference_nil h₁,
        unequalDifference_nil h₂, Option.some.injEq, Option.some.injEq]

theorem costDifferences_nil (hheld : 0 < system.totalQuantity)
    (h : costDifferences nfc tolerance symbol system manual = .ok ds) :
    ds = [] ↔ ∃ fillCost ∈ system.averageCost, ∃ manualCost ∈ manual.averageCost,
      |fillCost - manualCost| ≤ tolerance.averageCostTolerance := by
  unfold costDifferences at h
  cases hfills : system.averageCost with
  | none =>
    rw [hfills] at h
    rw [if_pos (Or.inl hheld)] at h
    exact iff_of_false (appended_ne_nil h) (by simp)
  | some fillCost =>
    cases hmanual : manual.averageCost with
    | none =>
      rw [hfills, hmanual] at h
      rw [if_pos (Or.inl hheld)] at h
      exact iff_of_false (appended_ne_nil h) (by simp)
    | some manualCost =>
      rw [hfills, hmanual] at h
      dsimp only at h
      by_cases hdelta : tolerance.averageCostTolerance < |fillCost - manualCost|
      · rw [if_pos hdelta] at h
        refine iff_of_false (appended_ne_nil h) ?_
        simpa using hdelta
      · rw [if_neg hdelta, pure_ok] at h
        refine iff_of_true h.symm ?_
        simpa using hdelta

/-- A symbol appends nothing when both sides list it and their holdings agree. -/
theorem symbolDifferences_nil {manuals : List (String × ManualPositionObservation)}
    {systems : List (String × FillDerivedPositionReference)}
    (hheld : ∀ system, systems.lookup symbol = some system → 0 < system.totalQuantity)
    (h : symbolDifferences nfc tolerance manuals systems symbol = .ok ds) :
    ds = [] ↔ ∃ manual, manuals.lookup symbol = some manual
      ∧ ∃ system, systems.lookup symbol = some system
        ∧ Holding.Agrees tolerance.averageCostTolerance manual.holding
          system.holding := by
  unfold symbolDifferences at h
  cases hmanual : manuals.lookup symbol with
  | none =>
    refine iff_of_false ?_ (by simp)
    cases hsystem : systems.lookup symbol with
    | none =>
      rw [hmanual, hsystem] at h
      exact appended_ne_nil h
    | some system =>
      rw [hmanual, hsystem] at h
      exact appended_ne_nil h
  | some manual =>
    cases hsystem : systems.lookup symbol with
    | none =>
      rw [hmanual, hsystem] at h
      refine iff_of_false ?_ (by simp)
      simp only [systemMissing, bind_ok, pure_ok] at h
      obtain ⟨missing, -, suspected, -, rfl⟩ := h
      exact cons_ne_nil _ _
    | some system =>
      rw [hmanual, hsystem] at h
      simp only [bind_ok, pure_ok] at h
      obtain ⟨totals, htotals, parts, hparts, costs, hcosts, rfl⟩ := h
      rw [append_eq_nil_iff, append_eq_nil_iff,
        totalDifferences_nil htotals, partDifferences_nil hparts,
        costDifferences_nil (hheld system hsystem) hcosts]
      constructor
      · rintro ⟨⟨htotal, havailable, hfrozen⟩, hcost⟩
        exact ⟨manual, rfl, system, rfl, htotal, havailable, hfrozen, fun _ => hcost⟩
      · rintro ⟨_, hm, _, hs, hagrees⟩
        cases hm
        cases hs
        exact ⟨⟨hagrees.total, hagrees.available, hagrees.frozen⟩,
          hagrees.cost (hheld system hsystem)⟩

end Appended

-- ==== all the symbols

namespace ReconcileAccount

variable {nfc : String → String} {ds : List ReconciliationDifference} {call : ReconcileAccount}

theorem nodup_manual : (call.observation.positions.map (·.symbol)).Nodup :=
  call.observation.ordered.imp fun hlt => ne_of_lt hlt

theorem lookup_manual (symbol : String) : call.manual.lookup symbol
      = call.observation.positions.find? (·.symbol = symbol) := by
  have hkeys : (Lib.keys (call.observation.positions.map fun item =>
      (item.symbol, item))).Nodup := by
    unfold Lib.keys
    rw [map_map]
    exact nodup_manual
  unfold manual
  rw [dictOf_eq hkeys]
  exact lookup_map_self ManualPositionObservation.symbol _ symbol

theorem nodup_held (hnd : (call.positions.map (·.symbol)).Nodup) :
    (call.held.map (·.symbol)).Nodup :=
  hnd.sublist (filter_sublist.map _)

theorem lookup_system (hnd : (call.positions.map (·.symbol)).Nodup) (symbol : String) :
    call.system.lookup symbol = call.held.find? (·.symbol = symbol) := by
  have hkeys : (Lib.keys (call.held.map fun item => (item.symbol, item))).Nodup := by
    unfold Lib.keys
    rw [map_map]
    exact nodup_held hnd
  show (dictOf (call.held.map fun item => (item.symbol, item))).lookup symbol = _
  rw [dictOf_eq hkeys]
  exact lookup_map_self FillDerivedPositionReference.symbol _ symbol

theorem held_pos {item : FillDerivedPositionReference} (h : item ∈ call.held) :
    0 < item.totalQuantity := by
  simpa using (mem_filter.mp h).2

theorem mem_symbols {symbol : String} :
    symbol ∈ call.symbols ↔ (∃ manual, call.manual.lookup symbol = some manual)
      ∨ ∃ system, call.system.lookup symbol = some system := by
  unfold symbols
  rw [mem_sortedDistinct, mem_append, Lib.mem_keys, Lib.mem_keys]

def Listed (call : ReconcileAccount) (symbol : String) : Prop :=
  ∃ manual, call.manual.lookup symbol = some manual
    ∧ ∃ system, call.system.lookup symbol = some system
      ∧ Holding.Agrees call.tolerance.averageCostTolerance manual.holding system.holding

section Symbols

variable (hnd : (call.positions.map (·.symbol)).Nodup)

include hnd

variable (h : ∀ symbol ∈ call.symbols, call.Listed symbol)

include h in
theorem agrees_of_listed (symbol : String) : Holding.Agrees call.tolerance.averageCostTolerance
      (call.observation.holdingOf symbol) (holdingOf call.held symbol) := by
  unfold ManualAccountObservation.holdingOf holdingOf
  by_cases hlisted : symbol ∈ call.symbols
  · obtain ⟨manual, hmanual, system, hsystem, hagrees⟩ := h symbol hlisted
    rw [lookup_manual] at hmanual
    rw [lookup_system hnd] at hsystem
    rw [hmanual, hsystem]
    exact hagrees
  · rw [mem_symbols, not_or] at hlisted
    have hmanual : call.manual.lookup symbol = none :=
      Option.eq_none_iff_forall_ne_some.mpr (not_exists.mp hlisted.1)
    have hsystem : call.system.lookup symbol = none :=
      Option.eq_none_iff_forall_ne_some.mpr (not_exists.mp hlisted.2)
    rw [lookup_manual] at hmanual
    rw [lookup_system hnd] at hsystem
    rw [hmanual, hsystem]
    exact ⟨rfl, rfl, rfl, fun hpos => absurd hpos (Nat.lt_irrefl 0)⟩

include h in
theorem noZeroRows_of_listed : call.NoZeroRows := by
  intro item hitem
  have hfound : call.manual.lookup item.symbol = some item := by
    rw [lookup_manual, find?_eq_some_iff_mem nodup_manual]
    exact ⟨hitem, rfl⟩
  obtain ⟨manual, hmanual, system, hsystem, hagrees⟩ :=
    h item.symbol (mem_symbols.mpr (Or.inl ⟨item, hfound⟩))
  rw [hfound] at hmanual
  cases hmanual
  rw [lookup_system hnd] at hsystem
  have hpos := held_pos (mem_of_find?_eq_some hsystem)
  have htotal : item.totalQuantity = system.totalQuantity := hagrees.total
  omega

/-- A symbol of which both sides hold as much is listed on both, unless one of them
lists it with quantity zero. -/
theorem listed_of_agrees {symbol : String} (hlisted : symbol ∈ call.symbols)
    (hzero : call.NoZeroRows)
    (hagrees : Holding.Agrees call.tolerance.averageCostTolerance
      (call.observation.holdingOf symbol) (holdingOf call.held symbol)) :
    call.Listed symbol := by
  unfold ManualAccountObservation.holdingOf holdingOf at hagrees
  rw [mem_symbols, lookup_manual, lookup_system hnd] at hlisted
  unfold Listed
  rw [lookup_manual, lookup_system hnd]
  cases hmanual : call.observation.positions.find? (·.symbol = symbol) with
  | none =>
    cases hsystem : call.held.find? (·.symbol = symbol) with
    | none =>
      rw [hmanual, hsystem] at hlisted
      simp at hlisted
    | some system =>
      rw [hmanual, hsystem] at hagrees
      have hpos := held_pos (mem_of_find?_eq_some hsystem)
      have htotal : 0 = system.totalQuantity := hagrees.total
      omega
  | some manual =>
    cases hsystem : call.held.find? (·.symbol = symbol) with
    | none =>
      rw [hmanual, hsystem] at hagrees
      exact absurd hagrees.total (hzero manual (mem_of_find?_eq_some hmanual))
    | some system =>
      rw [hmanual, hsystem] at hagrees
      exact ⟨manual, rfl, system, rfl, hagrees⟩

/-- The rows agree when the holdings do, and no row of the account is of quantity
zero. -/
theorem listed_iff : (∀ symbol ∈ call.symbols, call.Listed symbol)
    ↔ (∀ symbol, Holding.Agrees call.tolerance.averageCostTolerance
        (call.observation.holdingOf symbol) (holdingOf call.held symbol))
      ∧ call.NoZeroRows :=
  ⟨fun h => ⟨agrees_of_listed hnd h, noZeroRows_of_listed hnd h⟩,
    fun h symbol hlisted => listed_of_agrees hnd hlisted h.2 (h.1 symbol)⟩

end Symbols

/-- Nothing is appended when the account agrees with what the fills hold, and lists no
row of quantity zero. -/
theorem differences_nil (hnd : (call.positions.map (·.symbol)).Nodup)
    (h : call.differences nfc = .ok ds) :
    ds = [] ↔ call.ReconcilesHeld ∧ call.NoZeroRows := by
  simp only [differences, bind_ok, pure_ok] at h
  obtain ⟨equity, hequity, cash, hcash, ledger, hledger, perSymbol, hsymbols, rfl⟩ := h
  have hheld : ∀ symbol, ∀ system, call.system.lookup symbol = some system →
      0 < system.totalQuantity := by
    intro symbol system hsystem
    rw [lookup_system hnd] at hsystem
    exact held_pos (mem_of_find?_eq_some hsystem)
  have hflatten : perSymbol.flatten = [] ↔ ∀ symbol ∈ call.symbols,
      call.Listed symbol := by
    rw [flatten_eq_nil_iff]
    constructor
    · intro hnil symbol hsymbol
      obtain ⟨of, hof, hrun⟩ := mapM_ok_mem hsymbols symbol hsymbol
      exact (symbolDifferences_nil (hheld symbol) hrun).mp (hnil of hof)
    · intro hagrees of hof
      obtain ⟨symbol, hsymbol, hrun⟩ := mem_mapM_ok hsymbols of hof
      exact (symbolDifferences_nil (hheld symbol) hrun).mpr (hagrees symbol hsymbol)
  rw [append_eq_nil_iff, append_eq_nil_iff, append_eq_nil_iff,
    equityDifferences_nil hequity, cashDifferences_nil hcash,
    ledgerDifferences_nil hledger, hflatten, listed_iff hnd]
  constructor
  · rintro ⟨⟨⟨hequity, hcash⟩, hcomplete⟩, hholdings, hzero⟩
    exact ⟨⟨hcomplete, ⟨hequity, hcash⟩, hholdings⟩, hzero⟩
  · rintro ⟨⟨hcomplete, ⟨hequity, hcash⟩, hholdings⟩, hzero⟩
    exact ⟨⟨⟨hequity, hcash⟩, hcomplete⟩, hholdings, hzero⟩

variable {symbol : String}

theorem holdingOf_zero (h : (call.observation.holdingOf symbol).total = 0) :
    (call.observation.holdingOf symbol).available = some 0
      ∧ (call.observation.holdingOf symbol).frozen = some 0 := by
  unfold ManualAccountObservation.holdingOf at h ⊢
  cases hrow : call.observation.positions.find? (·.symbol = symbol) with
  | none => exact ⟨rfl, rfl⟩
  | some row =>
    rw [hrow] at h
    have htotal : row.totalQuantity = 0 := h
    have hparts := row.partition
    have havailable : row.availableQuantity = 0 := by omega
    have hfrozen : row.frozenQuantity = 0 := by omega
    exact ⟨congrArg some havailable, congrArg some hfrozen⟩

theorem find?_held_pos (hnd : (call.positions.map (·.symbol)).Nodup)
    {item : FillDerivedPositionReference}
    (hfind : call.positions.find? (·.symbol = symbol) = some item) (hpos : 0 < item.totalQuantity) :
    call.held.find? (·.symbol = symbol) = some item := by
  obtain ⟨hmem, hsymbol⟩ := (find?_eq_some_iff_mem hnd).mp hfind
  refine (find?_eq_some_iff_mem (nodup_held hnd)).mpr ⟨?_, hsymbol⟩
  exact mem_filter.mpr ⟨hmem, decide_eq_true hpos⟩

theorem find?_held_none (hnd : (call.positions.map (·.symbol)).Nodup)
    (hfind : ∀ item, call.positions.find? (·.symbol = symbol) = some item → item.totalQuantity = 0)
    :
    call.held.find? (·.symbol = symbol) = none := by
  rw [Option.eq_none_iff_forall_ne_some]
  intro item hitem
  obtain ⟨hmem, hsymbol⟩ := (find?_eq_some_iff_mem (nodup_held hnd)).mp hitem
  have hzero := hfind item ((find?_eq_some_iff_mem hnd).mpr ⟨mem_of_mem_filter hmem, hsymbol⟩)
  have hpos := held_pos hmem
  omega

/-- A symbol's holding stays the same without the rows of quantity zero, unless its
own row is one of them. -/
theorem holdingOf_held (hnd : (call.positions.map (·.symbol)).Nodup) (symbol : String) :
    holdingOf call.held symbol = holdingOf call.positions symbol
      ∨ ∃ item, call.positions.find? (·.symbol = symbol) = some item
          ∧ item.totalQuantity = 0 ∧ holdingOf call.held symbol = .nothing := by
  unfold holdingOf
  cases hrow : call.positions.find? (·.symbol = symbol) with
  | none =>
    left
    rw [find?_held_none hnd fun item hitem => by rw [hrow] at hitem; cases hitem]
  | some item =>
    rcases Nat.eq_zero_or_pos item.totalQuantity with hzero | hpos
    · right
      refine ⟨item, rfl, hzero, ?_⟩
      rw [find?_held_none hnd fun other hother => ?_]
      · rfl
      · rw [hrow] at hother
        cases hother
        exact hzero
    · left
      rw [find?_held_pos hnd hrow hpos]

theorem reconciles_iff (hnd : (call.positions.map (·.symbol)).Nodup) :
    call.Reconciles ↔ call.ReconcilesHeld ∧ call.ZeroRowsNamed := by
  constructor
  · rintro ⟨hcomplete, hmoney, hholdings⟩
    refine ⟨⟨hcomplete, hmoney, fun symbol => ?_⟩, fun item hitem hzero => ?_⟩
    · have hagrees := hholdings symbol
      rcases holdingOf_held hnd symbol with hsame | ⟨item, hrow, hzero, hnothing⟩
      · rw [hsame]
        exact hagrees
      · rw [holdingOf, hrow] at hagrees
        have htotal : (call.observation.holdingOf symbol).total = 0 := hagrees.total.trans hzero
        obtain ⟨havailable, hfrozen⟩ := holdingOf_zero htotal
        rw [hnothing]
        exact ⟨htotal, havailable, hfrozen, fun hpos => absurd hpos (Nat.lt_irrefl 0)⟩
    · have hagrees := hholdings item.symbol
      rw [holdingOf, (find?_eq_some_iff_mem hnd).mpr ⟨hitem, rfl⟩] at hagrees
      obtain ⟨havailable, hfrozen⟩ := holdingOf_zero (hagrees.total.trans hzero)
      exact ⟨hagrees.available.symm.trans havailable, hagrees.frozen.symm.trans hfrozen⟩
  · rintro ⟨⟨hcomplete, hmoney, hholdings⟩, hnamed⟩
    refine ⟨hcomplete, hmoney, fun symbol => ?_⟩
    have hagrees := hholdings symbol
    rcases holdingOf_held hnd symbol with hsame | ⟨item, hrow, hzero, hnothing⟩
    · rw [← hsame]
      exact hagrees
    · rw [hnothing] at hagrees
      obtain ⟨havailable, hfrozen⟩ := hnamed item (mem_of_find?_eq_some hrow) hzero
      rw [holdingOf, hrow]
      exact ⟨hagrees.total.trans hzero.symm, hagrees.available.trans havailable.symm,
        hagrees.frozen.trans hfrozen.symm,
        fun hpos => absurd hzero (Nat.ne_of_gt hpos)⟩

end ReconcileAccount

-- ==== the verdict

theorem statusOf_reconciled {ds : List ReconciliationDifference} :
    statusOf ds = .reconciled ↔ ds = [] := by
  unfold statusOf
  by_cases hds : ds = []
  · simp [hds]
  · simp only [hds, if_false, iff_false]
    split
    · simp
    · split
      · simp
      · simp

namespace AccountReconciliationReport

variable {nfc : String → String} {canonicalHash : ReconciliationValues → Except Raised String}

theorem create_status {values : ReconciliationValues}
    {report : AccountReconciliationReport} (h : create nfc canonicalHash values = .ok report) :
    report.status = values.status := by
  simp only [create, bind_ok, pure_ok] at h
  obtain ⟨digest, -, reconciliationId, -, _, -, rfl⟩ := h
  rfl

theorem create_congr (values : ReconciliationValues)
    {snapshotIds : List String} (h : ∀ id, id ∈ values.positionSnapshotIds ↔ id ∈ snapshotIds) :
    create nfc canonicalHash { values with positionSnapshotIds := snapshotIds }
      = create nfc canonicalHash values := by
  unfold create
  rw [sortedDistinct_congr h]

end AccountReconciliationReport

section Verdict

variable {nfc : String → String} {canonicalHash : ReconciliationValues → Except Raised String}
  {call : ReconcileAccount} {report : AccountReconciliationReport}

theorem nodup_of_validate {u : Unit} (h : call.validate = .ok u) :
    (call.positions.map (·.symbol)).Nodup := by
  simp only [ReconcileAccount.validate, bind_ok, require_ok] at h
  obtain ⟨_, -, _, -, _, -, hnd⟩ := h
  exact hnd

theorem reconciled_iff (h : reconcileAccount nfc canonicalHash call = .ok report) :
    (call.positions.map (·.symbol)).Nodup
      ∧ (report.status = .reconciled ↔ call.ReconcilesHeld ∧ call.NoZeroRows) := by
  simp only [reconcileAccount, bind_ok] at h
  obtain ⟨_, hvalid, ds, hdifferences, hcreate⟩ := h
  have hnd := nodup_of_validate hvalid
  rw [AccountReconciliationReport.create_status hcreate]
  exact ⟨hnd, statusOf_reconciled.trans (ReconcileAccount.differences_nil hnd hdifferences)⟩

variable {positions : List FillDerivedPositionReference} (hperm : call.positions.Perm positions)

include hperm in
theorem lookup_system_perm (hnd : (call.positions.map (·.symbol)).Nodup) (symbol : String) :
    ({ call with positions := positions } : ReconcileAccount).system.lookup symbol
      = call.system.lookup symbol := by
  have hnd' : (({ call with positions := positions } : ReconcileAccount).positions.map
      (·.symbol)).Nodup := (hperm.map _).nodup_iff.mp hnd
  rw [ReconcileAccount.lookup_system hnd, ReconcileAccount.lookup_system hnd']
  refine Option.ext fun item => ?_
  rw [find?_eq_some_iff_mem (ReconcileAccount.nodup_held hnd),
    find?_eq_some_iff_mem (ReconcileAccount.nodup_held hnd')]
  exact and_congr_left fun _ => (hperm.filter _).mem_iff.symm

include hperm in
theorem differences_perm (hnd : (call.positions.map (·.symbol)).Nodup) :
    ({ call with positions := positions } : ReconcileAccount).differences nfc
      = call.differences nfc := by
  have hledger : ({ call with positions := positions } : ReconcileAccount).ledgerDifferences nfc
        = call.ledgerDifferences nfc := by
    unfold ReconcileAccount.ledgerDifferences
    simp only [hperm.mem_iff]
  have hsymbols : ({ call with positions := positions } : ReconcileAccount).symbols
      = call.symbols := by
    refine sortedDistinct_congr fun symbol => ?_
    rw [mem_append, mem_append, Lib.mem_keys, Lib.mem_keys, Lib.mem_keys, Lib.mem_keys,
      lookup_system_perm hperm hnd]
    rfl
  have hsymbol : symbolDifferences nfc call.tolerance call.manual
        ({ call with positions := positions } : ReconcileAccount).system
      = symbolDifferences nfc call.tolerance call.manual call.system := by
    funext symbol
    unfold symbolDifferences
    rw [lookup_system_perm hperm hnd]
  unfold ReconcileAccount.differences
  rw [hledger, hsymbols]
  show (do
    let equity ← call.equityDifferences nfc
    let cash ← call.cashDifferences nfc
    let ledger ← call.ledgerDifferences nfc
    let perSymbol ← call.symbols.mapM (symbolDifferences nfc call.tolerance call.manual
      ({ call with positions := positions } : ReconcileAccount).system)
    pure (equity ++ cash ++ ledger ++ perSymbol.flatten)) = _
  rw [hsymbol]

include hperm in
theorem reconcileAccount_perm :
    reconcileAccount nfc canonicalHash { call with positions := positions }
      = reconcileAccount nfc canonicalHash call := by
  have hvalidate : ({ call with positions := positions } : ReconcileAccount).validate
      = call.validate := by
    unfold ReconcileAccount.validate
    simp only [hperm.mem_iff, (hperm.map _).nodup_iff]
  unfold reconcileAccount
  rw [hvalidate]
  cases hvalid : call.validate with
  | error e => rfl
  | ok u =>
    rw [differences_perm hperm (nodup_of_validate hvalid), ok_bind, ok_bind]
    cases call.differences nfc with
    | error e => rfl
    | ok ds =>
      exact AccountReconciliationReport.create_congr (call.values ds) fun id =>
        (hperm.map _).mem_iff

/-- Account reconciliation is exact unless the two sides agree and rows of quantity
zero, which the account may list and the fills may leave unnamed, are in the way. -/
theorem account_reconciliation (h : reconcileAccount nfc canonicalHash call = .ok report) :
    ((report.status = .reconciled ↔ call.Reconciles)
        ↔ (call.ReconcilesHeld → (call.NoZeroRows ↔ call.ZeroRowsNamed)))
      ∧ ∀ positions, call.positions.Perm positions →
          reconcileAccount nfc canonicalHash { call with positions := positions } = .ok report := by
  constructor
  · obtain ⟨hnd, hverdict⟩ := reconciled_iff h
    rw [hverdict, ReconcileAccount.reconciles_iff hnd]
    exact and_congr_right_iff
  · intro positions hperm
    rw [reconcileAccount_perm hperm, h]

end Verdict

-- ==== a sample

section Sample

def sampleDigest : String :=
  "sha256:0000000000000000000000000000000000000000000000000000000000000000"

def sampleTolerance : ReconciliationTolerance where
  configurationId := "tolerance"
  configurationHash := sampleDigest
  equityTolerance := 0
  cashTolerance := 0
  averageCostTolerance := 0
  equity := isAmount_zero
  cash := isAmount_zero
  cost := isAmount_zero

def sampleRow : ManualPositionObservation where
  symbol := "A"
  totalQuantity := 0
  availableQuantity := 0
  frozenQuantity := 0
  averageCost := none
  observedMarketValue := 0
  partition := rfl
  costPresence := by simp
  costPositive := by simp
  value := isAmount_zero

def sampleObservation : ManualAccountObservation where
  observationId := "observation"
  accountId := "account"
  tradingDate := 0
  asOfTime := 0
  totalEquity := 0
  availableCash := 0
  frozenCash := 0
  positions := [sampleRow]
  equity := isAmount_zero
  available := isAmount_zero
  frozen := isAmount_zero
  covered := by simp
  ordered := by simp

def sampleCall : ReconcileAccount where
  observation := sampleObservation
  positions := []
  fillLedgerHead := sampleDigest
  fillLedgerComplete := true
  tolerance := sampleTolerance
  authoritativeTotalEquity := some 0
  authoritativeAvailableCash := some 0
  authoritativeFrozenCash := some 0
  asOfTime := 0
  revision := 1
  previousReconciliationId := none
  idempotencyKey := "key"
  createdAt := 0

theorem sampleCall_accepted :
    (reconcileAccount id (fun _ => .ok sampleDigest) sampleCall).isOk := by
  decide +kernel

theorem sampleCall_reconciles : sampleCall.Reconciles := by
  refine ⟨⟨rfl, by simp [sampleCall]⟩, ⟨⟨0, rfl, ?_⟩, 0, rfl, 0, rfl, ?_⟩, fun symbol => ?_⟩
  · simp [sampleCall, sampleObservation, sampleTolerance]
  · simp [sampleCall, sampleObservation, sampleTolerance]
  · have hzero : (sampleCall.observation.holdingOf symbol).total = 0 := by
      unfold ManualAccountObservation.holdingOf
      by_cases hsymbol : symbol = "A"
      · subst hsymbol
        rfl
      · have hfind : sampleCall.observation.positions.find? (·.symbol = symbol) = none := by
          simpa [sampleCall, sampleObservation, sampleRow] using Ne.symm hsymbol
        rw [hfind]
        rfl
    obtain ⟨havailable, hfrozen⟩ := ReconcileAccount.holdingOf_zero hzero
    exact ⟨hzero, havailable, hfrozen, fun hpos => absurd hpos (Nat.lt_irrefl 0)⟩

/-- The account lists a symbol that it has sold, which the fills do not hold either,
and is not reconciled. -/
theorem zero_row_not_reconciled : ∃ call report,
    reconcileAccount id (fun _ => .ok sampleDigest) call = .ok report
      ∧ call.Reconciles ∧ report.status ≠ .reconciled := by
  obtain ⟨report, hreport⟩ := exists_of_isOk sampleCall_accepted
  refine ⟨sampleCall, report, hreport, sampleCall_reconciles, fun hstatus => ?_⟩
  have hzero := ((reconciled_iff hreport).2.mp hstatus).2
  exact hzero sampleRow mem_cons_self rfl

theorem account_reconciliation_sample : ∃ report,
    reconcileAccount id (fun _ => .ok sampleDigest) sampleCall = .ok report
      ∧ ((report.status = .reconciled ↔ sampleCall.Reconciles) ↔ (sampleCall.ReconcilesHeld
            → (sampleCall.NoZeroRows ↔ sampleCall.ZeroRowsNamed))) := by
  obtain ⟨report, hreport⟩ := exists_of_isOk sampleCall_accepted
  exact ⟨report, hreport, (account_reconciliation hreport).1⟩

end Sample

end MarketRegimeAlpha.DecisionSystem
