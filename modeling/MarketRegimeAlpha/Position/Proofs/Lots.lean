/-
One Fill against the lots.

The lots are a queue (`Lib.Fifo`), and a SELL takes from it the shares it
sells: `sellFill_spec` says what it leaves, what it could not find, and
that it has made its proceeds less its fee and less the cost of the lots
it used up, however the fee was apportioned among them.
-/
import Mathlib.Tactic.FieldSimp
import Mathlib.Tactic.Ring
import MarketRegimeAlpha.Lib.Fifo
import MarketRegimeAlpha.Position.Authority

namespace MarketRegimeAlpha.Position

open Lib List

variable {σ : Type}

-- ==== the queue

/-- A lot is a number of shares. -/
instance : Lot (MutableLot σ) where
  units := MutableLot.quantityRemaining
  withUnits lot n := { lot with quantityRemaining := n }
  units_withUnits _ _ := rfl
  withUnits_withUnits _ _ _ := rfl
  withUnits_units _ := rfl

variable (lot : MutableLot σ)

@[simp] theorem units_lot : Lot.units lot = lot.quantityRemaining := rfl

@[simp] theorem withUnits_unitCost (n : Nat) : (Lot.withUnits lot n).unitCost = lot.unitCost := rfl

@[simp] theorem withUnits_settlement (n : Nat) :
    (Lot.withUnits lot n).settlement = lot.settlement := rfl

variable (lots : List (MutableLot σ))

def costOf : ℚ :=
  (lots.map fun lot => (lot.quantityRemaining : ℚ) * lot.unitCost).sum

@[simp] theorem costOf_nil : costOf ([] : List (MutableLot σ)) = 0 := rfl

@[simp] theorem costOf_cons (lots : List (MutableLot σ)) :
    costOf (lot :: lots) = (lot.quantityRemaining : ℚ) * lot.unitCost + costOf lots := by
  simp [costOf]

@[simp] theorem costOf_append (lots lots' : List (MutableLot σ)) :
    costOf (lots ++ lots') = costOf lots + costOf lots' := by
  simp [costOf]

theorem costOf_held : costOf (Fifo.held lots) = costOf lots := by
  induction lots with
  | nil => rfl
  | cons lot lots ih =>
    unfold Fifo.held at ih ⊢
    rw [filter_cons]
    split
    · rw [costOf_cons, costOf_cons, ih]
    · next hzero =>
        have hz : lot.quantityRemaining = 0 := by simpa using hzero
        rw [costOf_cons, ih, hz, Nat.cast_zero, zero_mul, zero_add]

theorem buyLot_unitCost_pos (symbol : String) (fill : Fill)
    (settlement : σ) : 0 < (buyLot symbol fill settlement).unitCost := by
  have hquantity : (0 : ℚ) < fill.quantity := by exact_mod_cast fill.quantity_positive
  have hworth : 0 < fill.price * fill.quantity := mul_pos fill.price_positive hquantity
  have hfees := fill.fees_nonneg
  exact div_pos (by linarith) hquantity

-- ==== the sale

variable (sale : Sale)

def Sale.sold (fill : Fill) (count : Nat) (cost : ℚ) : Sale where
  remaining := sale.remaining - count
  sellFeeRemaining := sale.sellFeeRemaining - fill.fees * (count : ℚ) / fill.quantity
  realizedPnl := sale.realizedPnl + ((count : ℚ) * fill.price - cost
    - fill.fees * (count : ℚ) / fill.quantity)

theorem Sale.sold_zero (fill : Fill) : sale.sold fill 0 0 = sale := by
  simp [Sale.sold]

theorem Sale.sold_sold (fill : Fill) (m n : Nat) (c d : ℚ) :
    (sale.sold fill m c).sold fill n d = sale.sold fill (m + n) (c + d) := by
  unfold Sale.sold
  simp only [Sale.mk.injEq, Nat.cast_add]
  refine ⟨by omega, by ring, by ring⟩

abbrev soldShares (closed : MutableLot σ → Bool) (want : Nat)
    (lots : List (MutableLot σ)) : List Nat :=
  Fifo.taken (fun lot => !closed lot) want lots

variable (closed : MutableLot σ → Bool)

/-- The loop of a SELL takes its shares from the queue, and has sold
them. -/
theorem sellLots_spec (fill : Fill) (sale : Sale) (lots : List (MutableLot σ)) :
    sellLots closed fill sale lots = (Fifo.reduce lots (soldShares closed sale.remaining lots),
        sale.sold fill (soldShares closed sale.remaining lots).sum (costOf lots - costOf
            (Fifo.reduce lots (soldShares closed sale.remaining lots)))) := by
  induction lots generalizing sale with
  | nil => simp [sellLots, Fifo.taken, Fifo.reduce, Sale.sold_zero]
  | cons lot lots ih =>
    rw [sellLots]
    by_cases hdone : sale.remaining = 0
    · -- the loop stops, and nothing more is taken
      have hzero : ((lot :: lots).map fun _ => 0).sum = 0 := by simp
      rw [if_pos hdone, soldShares, hdone, Fifo.taken_zero,
        Fifo.reduce_zero, hzero, sub_self, Sale.sold_zero]
    · rw [if_neg hdone]
      cases hc : closed lot with
      | true =>
        rw [if_pos rfl]
        simp only [ih, soldShares, Fifo.taken, hc, Bool.not_true,
          Bool.false_eq_true, if_false, Nat.sub_zero, sum_cons,
          Nat.zero_add, Fifo.reduce, zipWith_cons_cons,
          Lot.withUnits_units, costOf_cons, add_sub_add_left_eq_sub]
      | false =>
        have hshares : soldShares closed sale.remaining (lot :: lots)
            = min sale.remaining lot.quantityRemaining :: soldShares closed (sale.remaining
                - min sale.remaining lot.quantityRemaining) lots := by
          simp [soldShares, Fifo.taken, hc]
        have hle : min sale.remaining lot.quantityRemaining
            ≤ lot.quantityRemaining := Nat.min_le_right _ _
        rw [if_neg (by simp), hshares]
        generalize min sale.remaining lot.quantityRemaining = m at hle ⊢
        have hafter : ({
            remaining := sale.remaining - m
            sellFeeRemaining := sale.sellFeeRemaining - fill.fees * m / fill.quantity
            realizedPnl := sale.realizedPnl + (m * (fill.price - lot.unitCost)
                - fill.fees * m / fill.quantity) } : Sale)
            = sale.sold fill m (m * lot.unitCost) := by
          simp only [Sale.sold, Sale.mk.injEq, true_and]
          ring
        have hrest : (sale.sold fill m (m * lot.unitCost)).remaining = sale.remaining - m := rfl
        simp only [hafter, ih, Sale.sold_sold, hrest]
        generalize soldShares closed (sale.remaining - m) lots = amounts
        have hreduce : Fifo.reduce (lot :: lots) (m :: amounts) = { lot with
              quantityRemaining := lot.quantityRemaining - m }
              :: Fifo.reduce lots amounts := rfl
        have hcost : (m : ℚ) * lot.unitCost + (costOf lots - costOf (Fifo.reduce lots amounts))
            = costOf (lot :: lots) - costOf (Fifo.reduce (lot :: lots) (m :: amounts)) := by
          rw [hreduce, costOf_cons, costOf_cons, Nat.cast_sub hle]
          ring
        rw [hcost, sum_cons, hreduce]

/-- The shares a SELL finds. -/
def matched (want : Nat) (lots : List (MutableLot σ)) : Nat :=
  min want (Fifo.total (lots.filter fun lot => !closed lot))

theorem matched_le (want : Nat) (lots : List (MutableLot σ)) : matched closed want lots ≤ want :=
  Nat.min_le_left _ _

/-- A SELL leaves the queue after taking, is short of what it did not
find, and has made its proceeds less its fee and the cost of the lots it
used up. -/
theorem sellFill_spec (fill : Fill) (lots : List (MutableLot σ)) (realizedPnl : ℚ) :
    (sellFill closed fill lots realizedPnl).1
        = Fifo.take (fun lot => !closed lot) fill.quantity lots
      ∧ (sellFill closed fill lots realizedPnl).2.remaining
        = fill.quantity - matched closed fill.quantity lots
      ∧ (sellFill closed fill lots realizedPnl).2.realizedPnl
        = realizedPnl + ((matched closed fill.quantity lots : ℚ) * fill.price
          - fill.fees - (costOf lots - costOf
            (Fifo.take (fun lot => !closed lot) fill.quantity lots))) := by
  have hcost : costOf (Fifo.take (fun lot => !closed lot) fill.quantity lots)
      = costOf (Fifo.reduce lots (soldShares closed fill.quantity lots)) :=
    costOf_held _
  have hsum : (soldShares closed fill.quantity lots).sum
      = matched closed fill.quantity lots := Fifo.sum_taken
  have hle := matched_le closed fill.quantity lots
  have hquantity : (0 : ℚ) < fill.quantity := by exact_mod_cast fill.quantity_positive
  -- the fee of the shares that were not found is left, and paid in the end
  have hfee : fill.fees * (matched closed fill.quantity lots : ℚ) / fill.quantity ≤ fill.fees := by
    rw [div_le_iff₀ hquantity]
    refine mul_le_mul_of_nonneg_left ?_ fill.fees_nonneg
    exact_mod_cast hle
  unfold sellFill
  rw [sellLots_spec]
  simp only [Sale.sold]
  refine ⟨rfl, by rw [hsum], ?_⟩
  rw [hsum, hcost, max_eq_right (by linarith)]
  ring

end MarketRegimeAlpha.Position
