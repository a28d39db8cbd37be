/-
Budgets given out in order: to requests, or in parts of one size.

# Requests

Each request gets what is left of the budget, at most what it asks for. The
grants never exceed the budget (`sum_grant_le`); a request that is cut leaves
nothing (`sum_grant_of_cut`), so whoever comes after it gets nothing
(`pairwise_grant`).

# Parts

`handOut part n rest` gives `n` takers a part each until nothing is left. The
parts never grow and add up to all of the remainder or to `n` whole parts
(`sum_handOut`). `n` takers with a base each, a share of the total rounded
down, come to the total with them (`sum_shares`).
-/
import Mathlib.Algebra.Order.BigOperators.Group.List
import Mathlib.Algebra.Order.Group.Defs
import Mathlib.Algebra.Group.Subgroup.Defs
import Mathlib.Tactic.Abel
import Mathlib.Tactic.FieldSimp
import Mathlib.Tactic.Linarith
import Mathlib.Tactic.Positivity
import Mathlib.Tactic.Ring

namespace MarketRegimeAlpha.Lib

open List

section Requests

variable {K : Type _} [AddCommGroup K] [LinearOrder K]

/-- What each request gets of a budget. -/
def grant (budget : K) : List K → List K
  | [] => []
  | request :: requests => min request budget :: grant (budget - min request budget) requests

variable {budget request amount : K} {requests : List K}

theorem grant_cons : grant budget (request :: requests)
    = min request budget :: grant (budget - min request budget) requests := rfl

theorem length_grant (budget : K) (requests : List K) :
    (grant budget requests).length = requests.length := by
  induction requests generalizing budget with
  | nil => rfl
  | cons request requests ih => rw [grant_cons, length_cons, length_cons, ih]

theorem grant_le (h : (request, amount) ∈ requests.zip (grant budget requests)) :
    amount ≤ request := by
  induction requests generalizing budget with
  | nil => cases h
  | cons first requests ih =>
    rcases mem_cons.mp h with heq | h
    · cases heq
      exact min_le_left _ _
    · exact ih h

variable [IsOrderedAddMonoid K]

theorem sub_min_nonneg (request budget : K) : 0 ≤ budget - min request budget :=
  sub_nonneg.mpr (min_le_right _ _)

theorem grant_nonneg (hbudget : 0 ≤ budget) (hrequests : ∀ request ∈ requests, 0 ≤ request) :
    ∀ amount ∈ grant budget requests, 0 ≤ amount := by
  induction requests generalizing budget with
  | nil => nofun
  | cons first requests ih =>
    intro amount hamount
    rcases mem_cons.mp hamount with rfl | hamount
    · exact le_min (hrequests first mem_cons_self) hbudget
    · exact ih (sub_min_nonneg first budget)
        (fun r hr => hrequests r (mem_cons_of_mem _ hr)) amount hamount

theorem sum_grant_le (hbudget : 0 ≤ budget) : (grant budget requests).sum ≤ budget := by
  induction requests generalizing budget with
  | nil => exact hbudget
  | cons first requests ih =>
    have hrest := ih (sub_min_nonneg first budget)
    calc min first budget + (grant (budget - min first budget) requests).sum
        ≤ min first budget + (budget - min first budget) := by gcongr
      _ = budget := by abel

variable (hrequests : ∀ request ∈ requests, 0 ≤ request)

include hrequests in
theorem grant_zero : ∀ amount ∈ grant 0 requests, amount = 0 := by
  intro amount hamount
  have hnonneg := grant_nonneg (le_refl (0 : K)) hrequests
  have hsum : (grant (0 : K) requests).sum ≤ 0 := sum_grant_le (le_refl 0)
  exact le_antisymm ((single_le_sum hnonneg amount hamount).trans hsum)
    (hnonneg amount hamount)

include hrequests in
theorem sum_grant_of_cut (h : (request, amount) ∈ requests.zip (grant budget requests))
    (hcut : amount < request) : (grant budget requests).sum = budget := by
  induction requests generalizing budget with
  | nil => cases h
  | cons first requests ih =>
    have htail : ∀ r ∈ requests, 0 ≤ r := fun r hr => hrequests r (mem_cons_of_mem _ hr)
    rw [grant_cons, sum_cons]
    rcases mem_cons.mp h with heq | h
    · cases heq
      have hall : min request budget = budget :=
        min_eq_right (le_of_lt (lt_of_not_ge fun hle => hcut.ne (min_eq_left hle)))
      rw [hall, sub_self, sum_eq_zero (grant_zero htail), add_zero]
    · rw [ih htail h]
      abel

include hrequests in
theorem pairwise_grant : (requests.zip (grant budget requests)).Pairwise fun earlier later =>
      earlier.2 < earlier.1 → later.2 = 0 := by
  induction requests generalizing budget with
  | nil => exact .nil
  | cons first requests ih =>
    have htail : ∀ r ∈ requests, 0 ≤ r := fun r hr => hrequests r (mem_cons_of_mem _ hr)
    refine pairwise_cons.mpr ⟨fun later hlater hcut => ?_, ih htail⟩
    have hall : min first budget = budget :=
      min_eq_right (le_of_lt (lt_of_not_ge fun hle => hcut.ne (min_eq_left hle)))
    rw [hall, sub_self] at hlater
    exact grant_zero htail _ (of_mem_zip hlater).2

end Requests

section Parts

variable {α : Type _} [AddCommGroup α] [LinearOrder α]

/-- The parts of `n` takers, in order. -/
def handOut (part : α) : Nat → α → List α
  | 0, _ => []
  | n + 1, rest => min part rest :: handOut part n (rest - min part rest)

@[simp] theorem length_handOut (part : α) (n : Nat) (rest : α) :
    (handOut part n rest).length = n := by
  induction n generalizing rest with
  | zero => rfl
  | succ n ih => simp [handOut, ih]

variable [IsOrderedAddMonoid α] {part rest : α} {n : Nat}

theorem mem_handOut (hpart : 0 ≤ part) (hrest : 0 ≤ rest) {x : α}
    (hx : x ∈ handOut part n rest) : 0 ≤ x ∧ x ≤ part ∧ x ≤ rest := by
  induction n generalizing rest with
  | zero => cases hx
  | succ n ih =>
    rcases mem_cons.mp hx with rfl | hx
    · exact ⟨le_min hpart hrest, min_le_left _ _, min_le_right _ _⟩
    · obtain ⟨h0, h1, h2⟩ := ih (sub_min_nonneg _ _) hx
      exact ⟨h0, h1, h2.trans (sub_le_self _ (le_min hpart hrest))⟩

theorem handOut_pairwise (hpart : 0 ≤ part) (hrest : 0 ≤ rest) :
    (handOut part n rest).Pairwise (· ≥ ·) := by
  induction n generalizing rest with
  | zero => exact List.Pairwise.nil
  | succ n ih =>
    refine pairwise_cons.mpr ⟨fun x hx => ?_, ih (sub_min_nonneg _ _)⟩
    obtain ⟨-, hxpart, hxrest⟩ := mem_handOut hpart (sub_min_nonneg _ _) hx
    by_cases hle : part ≤ rest
    · show x ≤ min part rest
      rw [min_eq_left hle]
      exact hxpart
    · show x ≤ min part rest
      rw [min_eq_right (le_of_not_ge hle)] at hxrest ⊢
      rw [sub_self] at hxrest
      exact hxrest.trans hrest

/-- The parts are all of the remainder, or `n` whole parts. -/
theorem sum_handOut (hpart : 0 ≤ part) (hrest : 0 ≤ rest) :
    (handOut part n rest).sum = min (n • part) rest := by
  induction n generalizing rest with
  | zero =>
    rw [zero_nsmul, min_eq_left hrest]
    rfl
  | succ n ih =>
    show (_ :: _).sum = _
    rw [sum_cons, ih (sub_min_nonneg _ _), succ_nsmul']
    by_cases hle : part ≤ rest
    · rw [min_eq_left hle, ← min_add_add_left, add_sub_cancel]
    · have hrest' := le_of_not_ge hle
      have hall : rest ≤ part + n • part :=
        hrest'.trans (le_add_of_nonneg_right (nsmul_nonneg hpart n))
      rw [min_eq_right hrest', sub_self, min_eq_right (nsmul_nonneg hpart n),
        add_zero, min_eq_right hall]

theorem handOut_full (hpart : 0 ≤ part) (hrest : n • part ≤ rest) :
    handOut part n rest = List.replicate n part := by
  induction n generalizing rest with
  | zero => rfl
  | succ n ih =>
    rw [succ_nsmul'] at hrest
    have hle : part ≤ rest := (le_add_of_nonneg_right (nsmul_nonneg hpart n)).trans hrest
    show min part rest :: handOut part n (rest - min part rest) = _
    rw [min_eq_left hle, ih (le_sub_iff_add_le'.mpr hrest)]
    rfl

omit [IsOrderedAddMonoid α] in
theorem handOut_mem_group {G : AddSubgroup α} (hpart : part ∈ G)
    (hrest : rest ∈ G) {x : α} (hx : x ∈ handOut part n rest) : x ∈ G := by
  induction n generalizing rest with
  | zero => cases hx
  | succ n ih =>
    have hmin : min part rest ∈ G := by
      rcases min_choice part rest with heq | heq
      · rw [heq]
        exact hpart
      · rw [heq]
        exact hrest
    rcases mem_cons.mp hx with rfl | hx
    · exact hmin
    · exact ih (G.sub_mem hrest hmin) hx

end Parts

section Shares

variable {α : Type _} [Field α] [LinearOrder α] [IsStrictOrderedRing α]
  {total limit base quantum : α} {n : Nat}

/-- `n` shares of a total, of at most `limit` each, whose base is off by
less than `quantum`: with the parts they come to the total, or to the
limit of every one. -/
theorem sum_shares (hn : 0 < n) (hquantum : 0 < quantum) (hbase : base ≤ min limit (total / n))
    (hnext : min limit (total / n) < base + quantum) :
    n * base + (handOut (min quantum (limit - base)) n (total - n * base)).sum
      = min total (n * limit) := by
  have hn' : (0 : α) < n := by exact_mod_cast hn
  obtain ⟨hlimit, hshare⟩ := le_min_iff.mp hbase
  have htotal : n * base ≤ total := by
    rw [mul_comm]
    exact (le_div_iff₀ hn').mp hshare
  have hpart : 0 ≤ min quantum (limit - base) := le_min hquantum.le (sub_nonneg.mpr hlimit)
  rw [sum_handOut hpart (sub_nonneg.mpr htotal), nsmul_eq_mul]
  by_cases hle : limit - base ≤ quantum
  · -- a whole part is all that the limit leaves
    rw [min_eq_right hle, ← min_add_add_left, min_comm]
    congr 1
    · ring
    · ring
  · -- the total runs out before every part is whole
    have hlt := lt_of_not_ge hle
    have hnear : total / n < base + quantum := by
      rcases min_lt_iff.mp hnext with hfar | hnear
      · linarith only [hfar, hlt]
      · exact hnear
    have hrun := (div_lt_iff₀ hn').mp hnear
    have hfull : total ≤ n * limit := by
      have hmul := mul_lt_mul_of_pos_left hlt hn'
      linarith only [hmul, hrun]
    rw [min_eq_left hlt.le, min_eq_left hfull, min_eq_right]
    · ring
    · linarith only [hrun]

end Shares

end MarketRegimeAlpha.Lib
