/-
Strategy sleeves: the positions of the strategy versions, projected from
observed Fills that are fully allocated among them.

# What stands for what

A Fill is the one of the Position authority, and its prices, fees and costs
are exact. The hash of a record's own content, and the identity made of it,
are read by nothing here and are left out, with the checks that compare them
to that content; the lineage of an allocation is kept. A text in an error is
shown as Python shows a text of printable characters.

The loop over the allocations of a batch sets one item of a dictionary for
each: `sleeveStep` is what it does to that item.
-/
import Mathlib.Data.Prod.Lex
import MarketRegimeAlpha.Lib.Dict
import MarketRegimeAlpha.Position.Records
import MarketRegimeAlpha.Strategies.Contracts

namespace MarketRegimeAlpha.Strategies

open Lib
open Position (Instant TradeSide)

-- ==== the batches

structure FillAllocation where
  allocationId : String
  (fillReference strategyVersionReference proposalReference : RuntimeArtifactReference)
  allocatedQuantity : Nat
  quantity_positive : 0 < allocatedQuantity

structure FillAllocationBatch where
  (sourceFillId sourceFillHash : String)
  correctionOfFillId : Option String
  (accountId symbol : String)
  side : TradeSide
  quantity : Nat
  (price fees : ℚ)
  (occurredAt recordedAt : Instant)
  allocations : List FillAllocation
  quantity_positive : 0 < quantity
  price_positive : 0 < price
  fees_nonneg : 0 ≤ fees
  sorted : (allocations.map (·.allocationId)).Pairwise (· < ·)
  allocated : (allocations.map (·.allocatedQuantity)).sum = quantity
  lineage : ∀ item ∈ allocations, item.fillReference.artifactId = sourceFillId
    ∧ item.fillReference.contentHash = sourceFillHash

/-- `repr` of a text of printable characters. -/
def reprText (value : String) : String :=
  let single := Char.ofNat 39
  let double := Char.ofNat 34
  let backslash := Char.ofNat 92
  let quote := if value.toList.contains single
      && !value.toList.contains double then double else single
  String.ofList ([quote] ++ value.toList.flatMap (fun c =>
    if c = quote ∨ c = backslash then [backslash, c] else [c]) ++ [quote])

def reprTuple : List String → String
  | [] => "()"
  | [value] => "(" ++ reprText value ++ ",)"
  | values => "(" ++ ", ".intercalate (values.map reprText) ++ ")"

-- ==== the effective

variable (batch : FillAllocationBatch)

/-- `(item.recorded_at, str(item.source_fill_id))`. -/
def recordedKey : Instant ×ₗ String :=
  toLex (batch.recordedAt, batch.sourceFillId)

/-- `(item.occurred_at, str(item.source_fill_id))`. -/
def occurredKey : Instant ×ₗ String :=
  toLex (batch.occurredAt, batch.sourceFillId)

def executionsOf (ordered : List FillAllocationBatch) : List (String × FillAllocationBatch) :=
  dictOf ((ordered.filter (·.correctionOfFillId = none)).map fun batch =>
    (batch.sourceFillId, batch))

def correctionStep (executions corrections :
    List (String × FillAllocationBatch)) (batch : FillAllocationBatch) :
    Except Raised (List (String × FillAllocationBatch)) :=
  match batch.correctionOfFillId with
  | none => .ok corrections
  | some target =>
    match executions.lookup target with
    | none => .error (.valueError
        ("Fill Allocation correction references unknown execution: " ++ target ++ "; executions="
          ++ reprTuple (sortBy id (keys executions))))
    | some original => do
        Lib.require ((corrections.lookup target).isNone) (.valueError
          "Fill Allocation execution has multiple corrections")
        Lib.require (batch.accountId = original.accountId
            ∧ batch.symbol = original.symbol ∧ batch.side = original.side)
          (.valueError "Fill Allocation correction scope mismatch")
        Lib.require (¬ batch.recordedAt < original.recordedAt)
          (.valueError "Fill Allocation correction predates execution")
        return setItem corrections target batch

variable (batches : List FillAllocationBatch)

def effectiveFillAllocationBatches : Except Raised (List FillAllocationBatch) := do
  let ordered := sortBy recordedKey batches
  Lib.require (ordered.map (·.sourceFillId)).Nodup (.valueError "duplicate Fill Allocation Batch")
  let executions := executionsOf ordered
  let corrections ← ordered.foldlM (correctionStep executions) []
  return sortBy occurredKey (executions.map fun (fillId, batch) =>
    (corrections.lookup fillId).getD batch)

-- ==== the sleeves

structure StrategySleevePosition where
  strategyVersionReference : RuntimeArtifactReference
  (accountId symbol : String)
  quantity : Int
  averageCost : Option ℚ
  (sourceAllocationIds sourceFillIds : List String)
  asOf : Instant

def StrategySleevePosition.postInit (sleeve : StrategySleevePosition) :
    Except Raised StrategySleevePosition := do
  Lib.require (¬ sleeve.quantity < 0) (.valueError "Strategy Sleeve quantity cannot be negative")
  Lib.require (sleeve.quantity = 0 ↔ sleeve.averageCost = none)
    (.valueError "Strategy Sleeve average cost must match open state")
  Lib.require (sleeve.sourceFillIds ≠ [] ∧ sleeve.sourceAllocationIds ≠ [])
    (.valueError "Strategy Sleeve requires observed Fill lineage")
  return sleeve

structure SleeveKey where
  (versionId accountId symbol : String)
  deriving DecidableEq

def sleeveOrder (key : SleeveKey) : String ×ₗ String ×ₗ String :=
  toLex (key.versionId, toLex (key.accountId, key.symbol))

def sleeveKey (entry : FillAllocationBatch × FillAllocation) : SleeveKey where
  versionId := entry.2.strategyVersionReference.artifactId
  accountId := entry.1.accountId
  symbol := entry.1.symbol

structure SleeveState where
  versionReference : RuntimeArtifactReference
  quantity : Int
  cost : ℚ
  (allocationIds fillIds : List String)
  deriving DecidableEq

def sleeveStep (state : Option SleeveState) (entry : FillAllocationBatch × FillAllocation) :
    Except Raised SleeveState :=
  let (batch, allocation) := entry
  let state := state.getD ⟨allocation.strategyVersionReference, 0, 0, [], []⟩
  let allocationIds := state.allocationIds ++ [allocation.allocationId]
  let fillIds := state.fillIds ++ [batch.sourceFillId]
  let allocated := allocation.allocatedQuantity
  match batch.side with
  | .buy =>
    let allocatedFees := batch.fees * allocated / batch.quantity
    .ok { state with
      quantity := state.quantity + allocated
      cost := state.cost + (batch.price * allocated + allocatedFees)
      allocationIds, fillIds }
  | .sell => do
      Lib.require (¬ state.quantity < allocated) (.valueError
        "allocated SELL exceeds Strategy Sleeve quantity")
      let unitCost : ℚ := if state.quantity = 0 then 0 else state.cost / state.quantity
      let quantity := state.quantity - allocated
      return { state with
        quantity, cost := unitCost * quantity, allocationIds, fillIds }

/-- The loop of `project_strategy_sleeves`. -/
def sleeveStates (effective : List FillAllocationBatch) :
    Except Raised (List (SleeveKey × SleeveState)) :=
  effective.foldlM (fun states batch =>
    batch.allocations.foldlM (fun states allocation =>
      setItemM sleeveKey sleeveStep states (batch, allocation)) states) []

def sleeveOf (asOf : Instant) (item : SleeveKey × SleeveState) : StrategySleevePosition where
  strategyVersionReference := item.2.versionReference
  accountId := item.1.accountId
  symbol := item.1.symbol
  quantity := item.2.quantity
  averageCost := if item.2.quantity = 0 then none else some (item.2.cost / item.2.quantity)
  sourceAllocationIds := item.2.allocationIds
  sourceFillIds := item.2.fillIds
  asOf := asOf

def projectStrategySleeves : Except Raised (List StrategySleevePosition) := do
  let effective ← effectiveFillAllocationBatches batches
  let states ← sleeveStates effective
  match effective with
  | [] => return []
  | first :: rest =>
    let asOf := (rest.map (·.recordedAt)).foldl max first.recordedAt
    (sortBy (fun item => sleeveOrder item.1) states).mapM fun item => (sleeveOf asOf item).postInit

end MarketRegimeAlpha.Strategies
