/-
The operational scenario over a cohort's capacity: which captured windows
measured budgets fit in, and what is left of the cohort after a buffer.

Budgets, fractions and moments (in seconds) are exact rationals. The
capacity mapping holds the items the scenario reads, absent ones as
`none`; its counts are natural numbers. A decimal fraction is one of a
buffer policy, between zero and one.
-/
import MarketRegimeAlpha.Lib.Checked
import MarketRegimeAlpha.Lib.OrderStat
import Mathlib.Data.Rat.Floor
import Mathlib.Data.String.Basic

namespace MarketRegimeAlpha.ResearchQualification.OperationalCapacity

open Lib

inductive State where
  | notEstimable
  | expectedInsufficient
  | ready
  deriving DecidableEq

structure CalendarRow where
  (sessionId sessionDate : String)
  (openAt closeAt : ℚ)
  deriving DecidableEq

/-- `robust.policy`. -/
structure BufferPolicy where
  downtimeBufferSessions : Nat
  missingObservationBufferFraction : ℚ
  fraction_unit : 0 ≤ missingObservationBufferFraction ∧ missingObservationBufferFraction ≤ 1
  deriving DecidableEq

structure Capacity where
  /-- `FAIL`, `PASS` or another state. -/
  state : Option String
  reasonCodes : List String
  validFrom : Option ℚ
  futureSessionRoster : List String
  /-- The values of `pending_exact_observation_counts`. -/
  pendingExactObservationCounts : List Nat
  (observedSessions observedObservations expectedMembersPerSession : Option Nat)
  policy : Option BufferPolicy
  (minimumSessions minimumObservations : Nat)
  useLifetimeCoverageComplete : Bool
  deriving DecidableEq

/-- `scenario_budgets`, in seconds. -/
structure Budgets where
  (collectionSeconds backupSeconds publicationSeconds : Option ℚ)
  deriving DecidableEq

structure Window where
  targetSession : String
  (publicationWindowSeconds maturesAt automaticOutcomeGraceSeconds : ℚ)
  /-- Set once the budgets are measured. -/
  state : Option State
  reasonCode : Option String
  deriving DecidableEq

structure BudgetCapacity where
  (sessions observations excludedWindows : Nat)
  bufferPolicy : Option BufferPolicy
  deriving DecidableEq

structure Scenario where
  state : State
  reasonCodes : List String
  scenarioBudgets : Budgets
  budgetCapacity : Option BudgetCapacity
  windows : List Window
  cohortCapacity : Capacity
  deriving DecidableEq

def requireBudget (name : String) (value : Option ℚ) : Except Raised Unit :=
  require (∀ seconds ∈ value, 0 < seconds)
    (.valueError (name ++ " must be a positive finite measured scenario budget"))

def Budgets.missing (budgets : Budgets) : List String :=
  ([("collection_seconds", budgets.collectionSeconds), ("backup_seconds", budgets.backupSeconds),
    ("publication_seconds", budgets.publicationSeconds)].filter (·.2.isNone)).map (·.1)

def Budgets.measured : Budgets → Except Raised (ℚ × ℚ × ℚ)
  | ⟨some collection, some backup, some publication⟩ => .ok (collection, backup, publication)
  | _ => .error (.assertionError "")

variable (capacity : Capacity)

def capturedReasons (rows : List CalendarRow) : List String :=
  let first := rows.head?.any (·.sessionDate ∈ capacity.futureSessionRoster)
  capacity.reasonCodes ++ if first then ["PRECEDING_CAPTURED_SESSION_UNAVAILABLE"] else []

/-- The windows of the future sessions that have a preceding captured
one, where it is known from when the model may be used. -/
def capturedWindows (rows : List CalendarRow) (observedAt outcomeGraceSeconds : ℚ) : List Window :=
  match capacity.validFrom with
  | none => []
  | some validFrom =>
    ((rows.zip rows.tail).filter fun (_, row) => row.sessionDate ∈ capacity.futureSessionRoster).map
      fun (preceding, row) => {
        targetSession := row.sessionDate
        publicationWindowSeconds := row.openAt - max (max preceding.closeAt observedAt) validFrom
        maturesAt := row.closeAt
        automaticOutcomeGraceSeconds := outcomeGraceSeconds
        state := none
        reasonCode := none }

def initialState : State :=
  if capacity.state = some "FAIL" then .expectedInsufficient else .notEstimable

/-- Why the budgets do not fit in the window. -/
def exceeded (collection backup publication outcomeGraceSeconds : ℚ) (window : Window) :
    Option String :=
  if collection + backup + publication ≥ window.publicationWindowSeconds then
    some "COLLECTION_BACKUP_PUBLICATION_EXCEED_CAPTURED_WINDOW"
  else if collection + backup ≥ outcomeGraceSeconds then
    some "COLLECTION_BACKUP_EXCEED_AUTOMATIC_OUTCOME_GRACE"
  else none

/-- `window.update`. -/
def Window.judged (window : Window) (reason : Option String) : Window :=
  { window with
    state := some (if reason.isSome then .expectedInsufficient else .ready)
    reasonCode := reason }

/-- The exact observation counts of the sessions the budgets leave
feasible, and of those that are pending. -/
def feasibleSlots (members : Nat) (windows : List Window) : List Nat :=
  List.replicate (windows.countP (·.state = some .ready)) members
    ++ capacity.pendingExactObservationCounts

variable (policy : Option BufferPolicy)

def keptSlots (slots : List Nat) : List Nat :=
  let slots := sortBy id slots
  match policy with
  | some policy => slots.take (slots.length - policy.downtimeBufferSessions)
  | none => slots

def missingFraction : ℚ :=
  (policy.map (·.missingObservationBufferFraction)).getD 0

/-- `budget_capacity`, where the exact denominators are there. -/
def budgetCapacity (windows : List Window) : Option BudgetCapacity := do
  let members ← capacity.expectedMembersPerSession
  let observedSessions ← capacity.observedSessions
  let observedObservations ← capacity.observedObservations
  let kept := keptSlots capacity.policy (feasibleSlots capacity members windows)
  return {
    sessions := observedSessions + kept.length
    observations := observedObservations + ⌊(kept.sum : ℚ) * (1 - missingFraction capacity.policy)⌋₊
    excludedWindows := windows.countP (·.state ≠ some .ready)
    bufferPolicy := capacity.policy }

/-- The state and the reasons, once the windows are judged. -/
def settled (budget : Option BudgetCapacity) (state : State)
    (reasons : List String) : State × List String :=
  match budget with
  | none => (state, reasons ++ ["EXACT_SAMPLE_DENOMINATORS_UNAVAILABLE"])
  | some budget =>
    if budget.sessions < capacity.minimumSessions
        ∨ budget.observations < capacity.minimumObservations then
      (.expectedInsufficient, reasons ++ ["BUDGET_FEASIBLE_WINDOWS_BELOW_COHORT_FLOOR"])
    else if capacity.state = some "PASS" ∧ capacity.useLifetimeCoverageComplete then
      (.ready, reasons)
    else (state, reasons)

/-- The mapping that is returned. -/
def scenario (budgets : Budgets) (state : State) (reasons : List String)
    (budget : Option BudgetCapacity) (windows : List Window) : Scenario where
  state := state
  reasonCodes := sortedDistinct (reasons ++
    if windows = [] ∧ state ≠ .expectedInsufficient then ["NO_CAPTURED_FUTURE_WINDOW"] else [])
  scenarioBudgets := budgets
  budgetCapacity := budget
  windows := windows
  cohortCapacity := capacity

def operationalCapacity (calendar : List CalendarRow) (observedAt : ℚ)
    (budgets : Budgets) (outcomeGraceSeconds : ℚ) : Except Raised Scenario := do
  requireBudget "collection_seconds" budgets.collectionSeconds
  requireBudget "backup_seconds" budgets.backupSeconds
  requireBudget "publication_seconds" budgets.publicationSeconds
  requireBudget "outcome_grace_seconds" (some outcomeGraceSeconds)
  let rows := sortBy (·.openAt) calendar
  require (rows.map (·.sessionId)).Nodup (.valueError "OPERATIONAL_CAPACITY_DUPLICATE_CALENDAR")
  let reasons := capturedReasons capacity rows
  let missing := budgets.missing
    ++ if capacity.validFrom = none then ["model_use_valid_from"] else []
  let windows := capturedWindows capacity rows observedAt outcomeGraceSeconds
  let initial := initialState capacity
  let ended := scenario capacity budgets
  if missing ≠ [] then
    let unmeasured := missing.map fun name => "UNMEASURED_" ++ name.toUpper
    return ended initial (reasons ++ unmeasured) none windows
  else if windows = [] then return ended initial reasons none windows
  else do
    let (collection, backup, publication) ← budgets.measured
    let windows := windows.map fun window =>
      window.judged (exceeded collection backup publication outcomeGraceSeconds window)
    let budget := budgetCapacity capacity windows
    let (state, reasons) := settled capacity budget initial reasons
    return ended state reasons budget windows

end MarketRegimeAlpha.ResearchQualification.OperationalCapacity
