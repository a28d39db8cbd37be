/-
Queues of lots, taken from the front.

# The queue

A lot holds a number of units. Taking units from a queue goes through it
from the front, passes over the lots that are not open to the taker, and
takes from each other lot what it holds, until nothing is wanted any
more; a lot left empty leaves the queue. `taken` is how many units come
from each lot, and all that is said of the queue is said through it.

# A whole run

A run adds lots at the back and takes units. Its units are conserved
(`run_total`), and with no lot closed to anyone the queue is at each
point what is left of the added lots after so many units from the front
(`run_eq_dropUnits`). Where a lot opens on a date (`Dated`), a queue that
ends empty has let go of every unit in time: after each date, no more was
to open than was taken (`soldOut_of_empty`), and for a run in the order
of its dates that is enough for it to end empty (`empty_of_soldOut`).
-/
import Mathlib

namespace MarketRegimeAlpha.Lib

open List

/-- An entry of a queue that holds a number of units. -/
class Lot (L : Type _) where
  units : L → Nat
  withUnits : L → Nat → L
  units_withUnits : ∀ lot n, units (withUnits lot n) = n
  withUnits_withUnits : ∀ lot m n, withUnits (withUnits lot m) n = withUnits lot n
  withUnits_units : ∀ lot, withUnits lot (units lot) = lot

namespace Fifo

open Lot

variable {L : Type _} [Lot L]

attribute [simp] units_withUnits withUnits_withUnits withUnits_units

-- ==== one taking

/-- The units in a queue. -/
def total (lots : List L) : Nat := (lots.map units).sum

@[simp] theorem total_nil : total ([] : List L) = 0 := rfl

@[simp] theorem total_cons (lot : L) (lots : List L) :
    total (lot :: lots) = units lot + total lots := by
  simp [total]

@[simp] theorem total_append (lots lots' : List L) :
    total (lots ++ lots') = total lots + total lots' := by
  simp [total]

/-- How many units come from each lot when `want` are taken from those
that are open. -/
def taken (isOpen : L → Bool) : Nat → List L → List Nat
  | _, [] => []
  | want, lot :: lots =>
    let units := if isOpen lot then min want (units lot) else 0
    units :: taken isOpen (want - units) lots

/-- The lots after so many units were taken from each. -/
def reduce (lots : List L) (amounts : List Nat) : List L :=
  lots.zipWith (fun lot amount => withUnits lot (units lot - amount)) amounts

/-- The lots that still hold something. -/
def held (lots : List L) : List L := lots.filter (0 < units ·)

/-- The queue after taking. -/
def take (isOpen : L → Bool) (want : Nat) (lots : List L) : List L :=
  held (reduce lots (taken isOpen want lots))

section Taken

variable {isOpen : L → Bool} {want : Nat} {lots : List L} {lot : L}

@[simp] theorem taken_zero : taken isOpen 0 lots = lots.map fun _ => 0 := by
  induction lots with
  | nil => rfl
  | cons lot lots ih => simp [taken, ih]

@[simp] theorem reduce_zero : reduce lots (lots.map fun _ => 0) = lots := by
  induction lots with
  | nil => rfl
  | cons lot lots ih =>
    unfold reduce at ih ⊢
    rw [map_cons, zipWith_cons_cons, ih, Nat.sub_zero, withUnits_units]

theorem sum_taken : (taken isOpen want lots).sum = min want (total (lots.filter isOpen)) := by
  induction lots generalizing want with
  | nil => simp [taken]
  | cons lot lots ih =>
    cases ho : isOpen lot with
    | false => simp [taken, ih, ho]
    | true =>
      simp only [taken, ho, if_true, sum_cons, ih, filter_cons_of_pos ho, total_cons]
      omega

theorem open_of_reduced {pair : L × L}
    (hpair : pair ∈ lots.zip (reduce lots (taken isOpen want lots)))
    (hless : units pair.2 < units pair.1) : isOpen pair.1 = true := by
  induction lots generalizing want with
  | nil => cases hpair
  | cons lot lots ih =>
    rcases mem_cons.mp hpair with rfl | hpair
    · by_contra hclosed
      dsimp only at hless hclosed
      rw [if_neg hclosed, Nat.sub_zero, withUnits_units] at hless
      exact Nat.lt_irrefl _ hless
    · exact ih hpair

theorem total_reduce : total (reduce lots (taken isOpen want lots))
      + (taken isOpen want lots).sum = total lots := by
  induction lots generalizing want with
  | nil => rfl
  | cons lot lots ih =>
    have hrest := @ih (want - if isOpen lot then min want (units lot) else 0)
    simp only [taken, reduce, zipWith_cons_cons, total_cons,
      units_withUnits, sum_cons] at hrest ⊢
    have hle : (if isOpen lot then min want (units lot) else 0) ≤ units lot := by
      split
      · exact Nat.min_le_right _ _
      · exact Nat.zero_le _
    omega

@[simp] theorem total_held (lots : List L) : total (held lots) = total lots :=
  by
    induction lots with
    | nil => rfl
    | cons lot lots ih =>
      unfold held at ih ⊢
      rw [filter_cons]
      split
      · rw [total_cons, total_cons, ih]
      · next hzero =>
          have hz : units lot = 0 := by simpa using hzero
          rw [total_cons, ih, hz, Nat.zero_add]

theorem total_take (isOpen : L → Bool) (want : Nat) (lots : List L) : total (take isOpen want lots)
      + min want (total (lots.filter isOpen)) = total lots := by
  unfold take
  rw [total_held, ← sum_taken]
  exact total_reduce

theorem mem_take (h : lot ∈ take isOpen want lots) :
    0 < units lot ∧ ∃ before ∈ lots, ∃ n ≤ units before, lot = withUnits before n := by
  obtain ⟨hmem, hpos⟩ := mem_filter.mp h
  refine ⟨by simpa using hpos, ?_⟩
  unfold reduce at hmem
  rw [mem_iff_getElem] at hmem
  obtain ⟨i, hi, hlot⟩ := hmem
  rw [length_zipWith] at hi
  rw [getElem_zipWith] at hlot
  exact ⟨lots[i], getElem_mem _, _, Nat.sub_le _ _, hlot.symm⟩

theorem take_map_sublist {β : Type _} {f : L → β} (hf : ∀ lot n, f (withUnits lot n) = f lot) :
    ((take isOpen want lots).map f).Sublist (lots.map f) := by
  have hreduce : (reduce lots (taken isOpen want lots)).map f = lots.map f := by
    induction lots generalizing want with
    | nil => rfl
    | cons lot lots ih =>
      simp only [reduce] at ih
      simp [taken, reduce, hf, ih]
  rw [← hreduce]
  exact filter_sublist.map f

theorem closed_of_short (hopen : ∀ lot n, isOpen (withUnits lot n) = isOpen lot)
    (hshort : total (lots.filter isOpen) < want)
    (h : lot ∈ take isOpen want lots) : isOpen lot = false := by
  induction lots generalizing want with
  | nil => cases h
  | cons first lots ih =>
    simp only [take, held, taken, reduce, zipWith_cons_cons, filter_cons] at h
    cases ho : isOpen first with
    | false =>
      rw [filter_cons_of_neg (by simp [ho])] at hshort
      simp only [ho, Bool.false_eq_true, if_false, Nat.sub_zero] at h
      split at h
      · rcases mem_cons.mp h with rfl | h
        · rw [hopen, ho]
        · exact ih hshort h
      · exact ih hshort h
    | true =>
      rw [filter_cons_of_pos ho, total_cons] at hshort
      simp only [ho, if_true] at h
      have hall : units first - min want (units first) = 0 := by omega
      rw [if_neg (by rw [units_withUnits, hall]; simp)] at h
      exact @ih (want - min want (units first)) (by omega) h

/-- While only open lots come first and hold enough, nothing is passed
over. -/
theorem taken_of_prefix (hpre : lots.Pairwise fun a b =>
      isOpen b = true → isOpen a = true)
    (henough : want ≤ total (lots.filter isOpen)) :
    taken isOpen want lots = taken (fun _ => true) want lots := by
  induction lots generalizing want with
  | nil => rfl
  | cons lot lots ih =>
    obtain ⟨hlot, hlots⟩ := pairwise_cons.mp hpre
    cases ho : isOpen lot with
    | true =>
      rw [filter_cons_of_pos ho, total_cons] at henough
      simp only [taken, ho, if_true]
      rw [ih hlots (by omega)]
    | false =>
      -- a closed lot has only closed ones after it
      have hnone : lots.filter isOpen = [] := by
        rw [filter_eq_nil_iff]
        intro b hb hopen
        rw [hlot b hb hopen] at ho
        cases ho
      rw [filter_cons_of_neg (by simp [ho]), hnone] at henough
      have hzero : want = 0 := by simpa using henough
      subst hzero
      simp

end Taken

theorem take_map {M : Type _} [Lot M] {f : L → M} {isOpen : L → Bool} {isOpen' : M → Bool}
    (hunits : ∀ lot, units (f lot) = units lot)
    (hwith : ∀ lot n, f (withUnits lot n) = withUnits (f lot) n)
    (hopen : ∀ lot, isOpen' (f lot) = isOpen lot) (want : Nat) (lots : List L) :
    take isOpen' want (lots.map f) = (take isOpen want lots).map f := by
  unfold take held reduce
  induction lots generalizing want with
  | nil => rfl
  | cons lot lots ih =>
    simp only [map_cons, taken, hopen, hunits, zipWith_cons_cons,
      filter_cons, units_withUnits, ih, apply_ite (List.map f), hwith]

-- ==== units from the front

/-- What is left of the lots after so many units from the front. -/
def dropUnits : Nat → List L → List L
  | _, [] => []
  | n, lot :: lots =>
    if units lot ≤ n then dropUnits (n - units lot) lots
    else withUnits lot (units lot - n) :: lots

/-- All lots hold something. -/
def Full (lots : List L) : Prop := ∀ lot ∈ lots, 0 < units lot

theorem full_held (lots : List L) : Full (held lots) := by
  intro lot hlot
  simpa using (mem_filter.mp hlot).2

section Drop

variable {n : Nat} {lots : List L}

theorem dropUnits_cons (n : Nat) (lot : L) (lots : List L) : dropUnits n (lot :: lots)
      = if units lot ≤ n then dropUnits (n - units lot) lots
        else withUnits lot (units lot - n) :: lots := rfl

@[simp] theorem dropUnits_zero (h : Full lots) : dropUnits 0 lots = lots := by
  cases lots with
  | nil => rfl
  | cons lot lots =>
    have hpos := h lot mem_cons_self
    rw [dropUnits_cons, if_neg (by omega), Nat.sub_zero, withUnits_units]

/-- Taking from lots that are all open is dropping units from the
front. -/
theorem take_open (h : Full lots) : take (fun _ => true) n lots = dropUnits n lots := by
  induction lots generalizing n with
  | nil => rfl
  | cons lot lots ih =>
    have hfull : Full lots := fun l hl => h l (mem_cons_of_mem lot hl)
    have hrest := ih hfull (n := n - min n (units lot))
    unfold take held reduce at hrest ⊢
    simp only [taken, if_true, zipWith_cons_cons, filter_cons,
      units_withUnits, decide_eq_true_eq]
    rw [hrest, dropUnits_cons]
    by_cases hle : units lot ≤ n
    · rw [if_pos hle, Nat.min_eq_right hle, if_neg (by omega)]
    · rw [if_neg hle, Nat.min_eq_left (by omega), if_pos (by omega),
        Nat.sub_self, dropUnits_zero hfull]

theorem dropUnits_full (h : Full lots) : Full (dropUnits n lots) := by
  rw [← take_open h]
  exact full_held _

theorem dropUnits_add (m n : Nat) (lots : List L) :
    dropUnits n (dropUnits m lots) = dropUnits (m + n) lots := by
  induction lots generalizing m with
  | nil => rfl
  | cons lot lots ih =>
    by_cases hm : units lot ≤ m
    · rw [dropUnits_cons, if_pos hm, ih, dropUnits_cons, if_pos (by omega), Nat.sub_add_comm hm]
    · rw [dropUnits_cons, if_neg hm]
      by_cases hn : units lot ≤ m + n
      · rw [dropUnits_cons, units_withUnits, if_pos (by omega), dropUnits_cons, if_pos hn]
        congr 1
        omega
      · rw [dropUnits_cons, units_withUnits, if_neg (by omega),
          dropUnits_cons, if_neg hn, withUnits_withUnits, Nat.sub_add_eq]

theorem dropUnits_append (h : n ≤ total lots) {back : List L} (hback : Full back) :
    dropUnits n (lots ++ back) = dropUnits n lots ++ back := by
  induction lots generalizing n with
  | nil =>
    have hzero : n = 0 := by simpa using h
    subst hzero
    exact dropUnits_zero hback
  | cons lot lots ih =>
    rw [total_cons] at h
    rw [cons_append, dropUnits_cons, dropUnits_cons]
    by_cases hle : units lot ≤ n
    · rw [if_pos hle, if_pos hle, ih (by omega)]
    · rw [if_neg hle, if_neg hle, cons_append]

theorem dropUnits_suffix (n : Nat) (lots : List L) : dropUnits n lots = []
      ∨ ∃ front lot back k, lots = front ++ lot :: back ∧ 0 < k
        ∧ k ≤ units lot ∧ dropUnits n lots = withUnits lot k :: back := by
  induction lots generalizing n with
  | nil => exact Or.inl rfl
  | cons lot lots ih =>
    rw [dropUnits_cons]
    by_cases hle : units lot ≤ n
    · rw [if_pos hle]
      rcases ih (n - units lot) with hnil | ⟨front, l, back, k, heq, hk⟩
      · exact Or.inl hnil
      · exact Or.inr ⟨lot :: front, l, back, k, by rw [heq]; rfl, hk⟩
    · rw [if_neg hle]
      exact Or.inr ⟨[], lot, lots, units lot - n, rfl, by omega, by omega, rfl⟩

end Drop

-- ==== a whole run

/-- One event of a queue: a lot comes in at the back, or units are taken
at a date. -/
inductive Event (L δ : Type _) where
  | add (lot : L)
  | take (want : Nat) (date : δ)

section Run

variable {δ : Type _} (isOpen : δ → L → Bool)

/-- The queue after one event. -/
def step (lots : List L) : Event L δ → List L
  | .add lot => lots ++ [lot]
  | .take want date => take (isOpen date) want lots

/-- The queue after a run of events. -/
def run (lots : List L) (events : List (Event L δ)) : List L := events.foldl (step isOpen) lots

def addedLots : List (Event L δ) → List L
  | [] => []
  | .add lot :: events => lot :: addedLots events
  | .take _ _ :: events => addedLots events

/-- The units a run wants. -/
def wanted : List (Event L δ) → Nat
  | [] => 0
  | .add _ :: events => wanted events
  | .take want _ :: events => want + wanted events

/-- The units a run wants and does not get. -/
def missing : List L → List (Event L δ) → Nat
  | _, [] => 0
  | lots, .add lot :: events => missing (lots ++ [lot]) events
  | lots, .take want date :: events =>
    (want - total (lots.filter (isOpen date))) + missing (take (isOpen date) want lots) events

/-- What a queue holds at the end, what was wanted, what came in and what
was missing. -/
theorem run_total (lots : List L) (events : List (Event L δ)) :
    total (run isOpen lots events) + wanted events = total lots + total (addedLots events)
        + missing isOpen lots events := by
  induction events generalizing lots with
  | nil => rfl
  | cons event events ih =>
    cases event with
    | add lot =>
      have h := ih (lots ++ [lot])
      rw [total_append, total_cons, total_nil] at h
      show total (run isOpen (lots ++ [lot]) events) + wanted events
        = total lots + total (lot :: addedLots events) + missing isOpen (lots ++ [lot]) events
      rw [total_cons]
      omega
    | take want date =>
      have h := ih (take (isOpen date) want lots)
      have htake := total_take (isOpen date) want lots
      show total (run isOpen (take (isOpen date) want lots) events) + (want + wanted events)
        = total lots + total (addedLots events) + ((want - total (lots.filter (isOpen date)))
            + missing isOpen (take (isOpen date) want lots) events)
      omega

variable {lots : List L} {events : List (Event L δ)}

theorem mem_run {lot : L} (h : lot ∈ run isOpen lots events) :
    ∃ before ∈ lots ++ addedLots events, ∃ n, lot = withUnits before n := by
  induction events generalizing lots with
  | nil => exact ⟨lot, mem_append_left _ h, units lot, (withUnits_units lot).symm⟩
  | cons event events ih =>
    cases event with
    | add l =>
      obtain ⟨before, hmem, n, heq⟩ := @ih (lots ++ [l]) h
      rw [append_assoc] at hmem
      exact ⟨before, hmem, n, heq⟩
    | take want date =>
      obtain ⟨before, hmem, n, rfl⟩ := ih h
      rcases mem_append.mp hmem with hmem | hmem
      · obtain ⟨-, first, hfirst, m, -, rfl⟩ := mem_take hmem
        exact ⟨first, mem_append_left _ hfirst, n, withUnits_withUnits _ _ _⟩
      · exact ⟨before, mem_append_right _ hmem, n, rfl⟩

theorem run_full (hlots : Full lots) (hadded : Full (addedLots events)) :
    Full (run isOpen lots events) := by
  induction events generalizing lots with
  | nil => exact hlots
  | cons event events ih =>
    cases event with
    | add lot =>
      refine @ih (lots ++ [lot]) (fun l hl => ?_) fun l hl => hadded l (mem_cons_of_mem lot hl)
      rcases mem_append.mp hl with hl | hl
      · exact hlots l hl
      · rw [mem_singleton.mp hl]
        exact hadded lot mem_cons_self
    | take want date => exact @ih (take (isOpen date) want lots) (full_held _) hadded

theorem dropUnits_of_total_le {n : Nat} (h : total lots ≤ n) : dropUnits n lots = [] := by
  induction lots generalizing n with
  | nil => rfl
  | cons lot lots ih =>
    rw [total_cons] at h
    rw [dropUnits_cons, if_pos (by omega), ih (by omega)]

/-- With every lot open, what a queue holds is what is left of all that
came in after the units it let go of. -/
theorem run_eq_dropUnits (hlots : Full lots) (hadded : Full (addedLots events)) :
    missing (fun _ _ => true) lots events ≤ wanted events ∧ run (fun _ _ => true) lots events
        = dropUnits (wanted events - missing (fun _ _ => true) lots events)
          (lots ++ addedLots events) := by
  induction events generalizing lots with
  | nil =>
    refine ⟨Nat.le_refl _, ?_⟩
    show lots = dropUnits 0 (lots ++ [])
    rw [append_nil, dropUnits_zero hlots]
  | cons event events ih =>
    cases event with
    | add lot =>
      have hlot : Full (lots ++ [lot]) := by
        intro l hl
        rcases mem_append.mp hl with hl | hl
        · exact hlots l hl
        · rw [mem_singleton.mp hl]
          exact hadded lot mem_cons_self
      have h := ih hlot fun l hl => hadded l (mem_cons_of_mem lot hl)
      rwa [append_assoc] at h
    | take want date =>
      have hall : lots.filter (fun _ => true) = lots := filter_eq_self.mpr fun _ _ => rfl
      obtain ⟨hle, h⟩ := @ih (take (fun _ => true) want lots)
        (by rw [take_open hlots]; exact dropUnits_full hlots) hadded
      have hback : Full (addedLots events) := hadded
      have hdrop : take (fun _ => true) want lots = dropUnits (min want (total lots)) lots := by
        rw [take_open hlots]
        rcases Nat.le_total want (total lots) with hw | hw
        · rw [Nat.min_eq_left hw]
        · rw [Nat.min_eq_right hw, dropUnits_of_total_le hw, dropUnits_of_total_le (Nat.le_refl _)]
      simp only [missing, wanted, hall]
      refine ⟨by omega, ?_⟩
      show run (fun _ _ => true) (take (fun _ => true) want lots) events
        = dropUnits _ (lots ++ addedLots events)
      rw [h]
      generalize missing (fun _ _ => true) (take (fun _ => true) want lots) events = m at hle ⊢
      rw [hdrop, ← dropUnits_append (Nat.min_le_right _ _) hback, dropUnits_add]
      have hcount : min want (total lots) + (wanted events - m)
          = want + wanted events - (want - total lots + m) := by
        omega
      rw [hcount]

end Run

-- ==== lots with dates

section Dated

variable {δ : Type _} [LinearOrder δ]

/-- What a queue needs to know of the dates of its lots: the day one came
in, and the day from which it is open. -/
structure Dates (L δ : Type _) [Lot L] [LinearOrder δ] where
  acquired : L → δ
  release : L → δ
  release_withUnits : ∀ lot n, release (withUnits lot n) = release lot

variable (dates : Dates L δ)

/-- A lot is open from its release on. -/
def Dates.isOpen (date : δ) (lot : L) : Bool := dates.release lot ≤ date

def Dates.after (date : δ) (lot : L) : Bool := date < dates.release lot

def Dates.date : Event L δ → δ
  | .add lot => dates.acquired lot
  | .take _ date => date

def wantedAfter (date : δ) : List (Event L δ) → Nat
  | [] => 0
  | .add _ :: events => wantedAfter date events
  | .take want d :: events => (if date < d then want else 0) + wantedAfter date events

/-- No more units come in than are wanted, in all and among those that
open after any date. -/
def SoldOut (events : List (Event L δ)) : Prop :=
  total (addedLots events) ≤ wanted events
    ∧ ∀ date, total ((addedLots events).filter (dates.after date)) ≤ wantedAfter date events

variable {events : List (Event L δ)}

omit [Lot L] [LinearOrder δ] in
theorem mem_addedLots {lot : L} : lot ∈ addedLots events ↔ .add lot ∈ events := by
  induction events with
  | nil => simp [addedLots]
  | cons event events ih =>
    cases event with
    | add l => simp [addedLots, ih]
    | take want d => simp [addedLots, ih]

omit [Lot L] in
theorem wantedAfter_le (date : δ) (events : List (Event L δ)) :
    wantedAfter date events ≤ wanted events := by
  induction events with
  | nil => exact Nat.le_refl _
  | cons event events ih =>
    cases event with
    | add l => exact ih
    | take want d =>
      simp only [wantedAfter, wanted]
      split
      · omega
      · omega

variable {dates}

@[simp] theorem Dates.after_withUnits (date : δ) (lot : L) (n : Nat) :
    dates.after date (withUnits lot n) = dates.after date lot := by
  simp [Dates.after, dates.release_withUnits]

theorem Dates.isOpen_withUnits (date : δ) (lot : L) (n : Nat) :
    dates.isOpen date (withUnits lot n) = dates.isOpen date lot := by
  simp [Dates.isOpen, dates.release_withUnits]

theorem Dates.after_eq_not (date : δ) (lot : L) :
    dates.after date lot = !dates.isOpen date lot := by
  unfold Dates.after Dates.isOpen
  rw [← decide_not, decide_eq_decide]
  exact not_le.symm

theorem total_filter_le (p : L → Bool) (lots : List L) : total (lots.filter p) ≤ total lots := by
  induction lots with
  | nil => exact Nat.le_refl _
  | cons lot lots ih =>
    rw [filter_cons]
    split
    · rw [total_cons, total_cons]
      omega
    · rw [total_cons]
      omega

theorem total_filter_held (p : L → Bool) (lots : List L) :
    total ((held lots).filter p) = total (lots.filter p) := by
  unfold held
  rw [filter_comm]
  exact total_held (lots.filter p)

/-- Of the lots of a kind, no more is taken than is wanted, nor than the
open ones among them hold. -/
theorem total_filter_take (isOpen : L → Bool) {p : L → Bool}
    (hp : ∀ lot n, p (withUnits lot n) = p lot) (want : Nat) (lots : List L) :
    total ((take isOpen want lots).filter p) ≤ total (lots.filter p)
      ∧ total (lots.filter p) ≤ total ((take isOpen want lots).filter p)
        + min want (total (lots.filter fun lot => p lot && isOpen lot)) := by
  unfold take
  rw [total_filter_held]
  induction lots generalizing want with
  | nil => exact ⟨Nat.le_refl _, Nat.zero_le _⟩
  | cons lot lots ih =>
    have h := ih (want - if isOpen lot then min want (units lot) else 0)
    simp only [taken, reduce, zipWith_cons_cons, filter_cons, hp] at h ⊢
    cases hpl : p lot with
    | false =>
      simp only [Bool.false_and, Bool.false_eq_true, if_false]
      omega
    | true =>
      cases ho : isOpen lot with
      | false =>
        simp only [ho, Bool.false_eq_true, if_false, Nat.sub_zero,
          Bool.and_false, if_true, total_cons, units_withUnits] at h ⊢
        omega
      | true =>
        simp only [ho, Bool.and_true, if_true, total_cons, units_withUnits] at h ⊢
        omega

variable (dates) in
/-- After a date, a queue lets go of no more than is wanted after it. -/
theorem addedAfter_le (date : δ) (lots : List L) (events : List (Event L δ)) :
    total (lots.filter (dates.after date)) + total ((addedLots events).filter (dates.after date))
      ≤ wantedAfter date events + total ((run dates.isOpen lots events).filter
          (dates.after date)) := by
  induction events generalizing lots with
  | nil => simp [addedLots, wantedAfter, run]
  | cons event events ih =>
    cases event with
    | add lot =>
      have h := ih (lots ++ [lot])
      rw [filter_append, total_append] at h
      have hcons : total ((lot :: addedLots events).filter (dates.after date))
          = total ([lot].filter (dates.after date))
            + total ((addedLots events).filter (dates.after date)) := by
        rw [← total_append, ← filter_append]
        rfl
      show total (lots.filter (dates.after date))
          + total ((lot :: addedLots events).filter (dates.after date))
        ≤ wantedAfter date events + total ((run dates.isOpen (lots ++ [lot]) events).filter
            (dates.after date))
      omega
    | take want d =>
      have h := ih (take (dates.isOpen d) want lots)
      have htake := (total_filter_take (dates.isOpen d)
        (p := dates.after date) (Dates.after_withUnits date) want
        lots).2
      show total (lots.filter (dates.after date))
          + total ((addedLots events).filter (dates.after date))
        ≤ ((if date < d then want else 0) + wantedAfter date events)
          + total ((run dates.isOpen (take (dates.isOpen d) want lots) events).filter
            (dates.after date))
      by_cases hd : date < d
      · rw [if_pos hd]
        omega
      · -- what opens after `date` is closed at `d`
        have hnone : lots.filter (fun lot => dates.after date lot && dates.isOpen d lot) = [] := by
          rw [filter_eq_nil_iff]
          intro lot _ hboth
          simp only [Dates.after, Dates.isOpen, Bool.and_eq_true, decide_eq_true_eq] at hboth
          exact hd (lt_of_lt_of_le hboth.1 hboth.2)
        rw [hnone, total_nil] at htake
        rw [if_neg hd]
        omega

theorem soldOut_of_empty (h : total (run dates.isOpen [] events) = 0) : SoldOut dates events := by
  constructor
  · have htotal := run_total dates.isOpen [] events
    omega
  · intro date
    have hafter := addedAfter_le dates date [] events
    have hrest := total_filter_le (dates.after date) (run dates.isOpen [] events)
    omega

/-- In the order of the dates, units that are wanted in time are let go
of; `floor` is a date that the run has reached. -/
theorem total_run_eq_zero {lots : List L}
    {floor : δ} (hfloor : ∀ event ∈ events, floor ≤ dates.date event)
    (horder : events.Pairwise fun a b => dates.date a ≤ dates.date b)
    (hlater : ∀ lot ∈ addedLots events, dates.acquired lot < dates.release lot)
    (htotal : total lots + total (addedLots events) ≤ wanted events)
    (hafter : ∀ date, floor ≤ date → total (lots.filter (dates.after date))
          + total ((addedLots events).filter (dates.after date))
        ≤ wantedAfter date events) :
    total (run dates.isOpen lots events) = 0 := by
  induction events generalizing lots floor with
  | nil =>
    have hzero : total lots + 0 ≤ 0 := htotal
    show total lots = 0
    omega
  | cons event events ih =>
    obtain ⟨hrest, hnext⟩ := pairwise_cons.mp horder
    have hevent := hfloor event mem_cons_self
    cases event with
    | add lot =>
      refine @ih (lots ++ [lot]) _ hrest hnext
        (fun l hl => hlater l (mem_cons_of_mem lot hl)) ?_
        fun date hdate => ?_
      · have h : total lots + total (lot :: addedLots events) ≤ wanted events := htotal
        rw [total_cons] at h
        rw [total_append, total_cons, total_nil]
        omega
      · have h : total (lots.filter (dates.after date))
            + total ((lot :: addedLots events).filter (dates.after date))
            ≤ wantedAfter date events :=
          hafter date (le_trans hevent hdate)
        have hcons : total ((lot :: addedLots events).filter (dates.after date))
            = total ([lot].filter (dates.after date))
              + total ((addedLots events).filter (dates.after date)) :=
          by
            rw [← total_append, ← filter_append]
            rfl
        rw [filter_append, total_append]
        omega
    | take want d =>
      have hd : ∀ date, d ≤ date → total ((take (dates.isOpen d) want lots).filter
              (dates.after date))
            + total ((addedLots events).filter (dates.after date))
          ≤ wantedAfter date events := by
        intro date hdate
        have h : total (lots.filter (dates.after date))
            + total ((addedLots events).filter (dates.after date))
            ≤ (if date < d then want else 0) + wantedAfter date events :=
          hafter date (le_trans hevent hdate)
        rw [if_neg (not_lt_of_ge hdate)] at h
        have hle := (total_filter_take (dates.isOpen d)
          (p := dates.after date) (Dates.after_withUnits date) want
          lots).1
        omega
      refine @ih (take (dates.isOpen d) want lots) _ hrest hnext hlater ?_ hd
      have h : total lots + total (addedLots events) ≤ want + wanted events := htotal
      have htake := total_take (dates.isOpen d) want lots
      by_cases hshort : total (lots.filter (dates.isOpen d)) < want
      · -- only lots that open later are left, and only such will come
        have hkeep : (take (dates.isOpen d) want lots).filter
            (dates.after d) = take (dates.isOpen d) want lots := by
          rw [filter_eq_self]
          intro lot hlot
          rw [Dates.after_eq_not, closed_of_short (Dates.isOpen_withUnits d) hshort hlot]
          rfl
        have hcome : (addedLots events).filter (dates.after d) = addedLots events := by
          rw [filter_eq_self]
          intro lot hlot
          have hdate : d ≤ dates.acquired lot := hrest (.add lot) (mem_addedLots.mp hlot)
          exact decide_eq_true (lt_of_le_of_lt hdate (hlater lot hlot))
        have hcut := hd d (le_refl d)
        rw [hkeep, hcome] at hcut
        have hle := wantedAfter_le d events
        omega
      · omega

/-- A run in the order of its dates, whose lots open after they come in,
ends empty if it is sold out. -/
theorem empty_of_soldOut (horder : events.Pairwise fun a b => dates.date a ≤ dates.date b)
    (hlater : ∀ lot ∈ addedLots events, dates.acquired lot < dates.release lot)
    (h : SoldOut dates events) : total (run dates.isOpen [] events) = 0 := by
  cases events with
  | nil => rfl
  | cons event events =>
    have hfloor : ∀ e ∈ event :: events, dates.date event ≤ dates.date e := by
      intro e he
      rcases mem_cons.mp he with rfl | he
      · exact le_refl _
      · exact (pairwise_cons.mp horder).1 e he
    refine total_run_eq_zero hfloor horder hlater ?_ fun date _ => ?_
    · rw [total_nil, Nat.zero_add]
      exact h.1
    · rw [filter_nil, total_nil, Nat.zero_add]
      exact h.2 date

end Dated

end Fifo

end MarketRegimeAlpha.Lib
