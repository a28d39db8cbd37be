/-
A pool of units at their average cost.

# The pool

Units come in at a cost each, and units that leave take the average cost of
the pool with them. What is left are the units that came in less those that
left (`run_units`), and its average lies between any bounds of the costs that
ever came in (`run_bounded`).

# When a run goes through

Moves arrive in groups that only add or only take. A run of groups goes
through exactly when, after every group, no more has left than has come in
(`run_flatten_isSome_iff`).
-/
import Mathlib.Tactic.FieldSimp
import Mathlib.Tactic.Linarith
import Mathlib.Tactic.Positivity
import Mathlib.Tactic.Ring

namespace MarketRegimeAlpha.Lib.AverageCost

open List

variable {K : Type _}

-- ==== the moves

/-- Units that come in at a cost each, or units that leave. -/
inductive Move (K : Type _) where
  | add (units : Nat) (unitCost : K)
  | take (units : Nat)

/-- The units that come in. -/
def Move.added : Move K → Nat
  | .add units _ => units
  | .take _ => 0

/-- The units that leave. -/
def Move.taken : Move K → Nat
  | .add _ _ => 0
  | .take units => units

def added (moves : List (Move K)) : Nat := (moves.map Move.added).sum

def taken (moves : List (Move K)) : Nat := (moves.map Move.taken).sum

@[simp] theorem added_nil : added ([] : List (Move K)) = 0 := rfl

@[simp] theorem taken_nil : taken ([] : List (Move K)) = 0 := rfl

@[simp] theorem added_cons (m : Move K) (moves : List (Move K)) :
    added (m :: moves) = m.added + added moves := by
  simp [added]

@[simp] theorem taken_cons (m : Move K) (moves : List (Move K)) :
    taken (m :: moves) = m.taken + taken moves := by
  simp [taken]

@[simp] theorem added_append (moves moves' : List (Move K)) :
    added (moves ++ moves') = added moves + added moves' := by
  simp [added]

@[simp] theorem taken_append (moves moves' : List (Move K)) :
    taken (moves ++ moves') = taken moves + taken moves' := by
  simp [taken]

-- ==== the pool

structure Pool (K : Type _) where
  units : Nat
  worth : K

section Run

variable [Field K]

/-- The pool before anything. -/
def empty : Pool K := ⟨0, 0⟩

/-- One move; more than there is cannot leave. -/
def move (pool : Pool K) : Move K → Option (Pool K)
  | .add units unitCost => some ⟨pool.units + units, pool.worth + unitCost * units⟩
  | .take units =>
    if units ≤ pool.units then
      some ⟨pool.units - units, pool.worth / pool.units * ((pool.units - units : Nat) : K)⟩
    else none

def run (pool : Pool K) (moves : List (Move K)) : Option (Pool K) := moves.foldlM move pool

variable {pool pool' : Pool K} {m : Move K} {moves : List (Move K)}

theorem run_cons_eq_some : run pool (m :: moves) = some pool' ↔
    ∃ next, move pool m = some next ∧ run next moves = some pool' := by
  unfold run
  exact Option.bind_eq_some_iff

theorem run_append_eq_some {moves' : List (Move K)} : run pool (moves ++ moves') = some pool' ↔
      ∃ next, run pool moves = some next ∧ run next moves' = some pool' := by
  unfold run
  rw [foldlM_append]
  exact Option.bind_eq_some_iff

theorem move_units (h : move pool m = some pool') :
    pool'.units + m.taken = pool.units + m.added := by
  cases m with
  | add units unitCost =>
    cases h
    rfl
  | take units =>
    unfold move at h
    by_cases hle : units ≤ pool.units
    · simp only [if_pos hle, Option.some.injEq] at h
      subst h
      show pool.units - units + units = pool.units + 0
      omega
    · simp [hle] at h

theorem run_units (h : run pool moves = some pool') :
    pool'.units + taken moves = pool.units + added moves := by
  induction moves generalizing pool with
  | nil =>
    cases h
    rfl
  | cons m moves ih =>
    obtain ⟨next, hmove, hrun⟩ := run_cons_eq_some.mp h
    have hnext := move_units hmove
    have hrest := ih hrun
    rw [taken_cons, added_cons]
    omega

theorem run_adds (h : ∀ m ∈ moves, ∃ units unitCost,
    m = .add units unitCost) : (run pool moves).isSome := by
  induction moves generalizing pool with
  | nil => rfl
  | cons m moves ih =>
    obtain ⟨units, unitCost, rfl⟩ := h m mem_cons_self
    exact ih fun m hm => h m (mem_cons_of_mem _ hm)

theorem run_takes (h : ∀ m ∈ moves, ∃ units, m = .take units)
    (hle : taken moves ≤ pool.units) : (run pool moves).isSome := by
  induction moves generalizing pool with
  | nil => rfl
  | cons m moves ih =>
    obtain ⟨units, rfl⟩ := h m mem_cons_self
    rw [taken_cons] at hle
    have htaken : (Move.take units : Move K).taken = units := rfl
    have hunits : units ≤ pool.units := by omega
    obtain ⟨next, hmove⟩ : ∃ next, move pool (.take units) = some next := ⟨_, if_pos hunits⟩
    have hnext := move_units hmove
    have hleft : taken moves ≤ next.units := by omega
    have hrest := ih (fun m hm => h m (mem_cons_of_mem _ hm)) hleft
    obtain ⟨last, hlast⟩ := Option.isSome_iff_exists.mp hrest
    exact Option.isSome_iff_exists.mpr ⟨last, run_cons_eq_some.mpr ⟨_, hmove, hlast⟩⟩

/-- Moves that only add or only take. -/
def OneWay (moves : List (Move K)) : Prop :=
  (∀ m ∈ moves, ∃ units unitCost, m = .add units unitCost) ∨ ∀ m ∈ moves, ∃ units, m = .take units

/-- A run of groups goes through exactly when after every group no more has
left than has come in. -/
theorem run_flatten_isSome_iff {groups : List (List (Move K))}
    (honeWay : ∀ group ∈ groups, OneWay group) :
    (run empty groups.flatten).isSome ↔
      ∀ n, taken (groups.take n).flatten ≤ added (groups.take n).flatten := by
  constructor
  · intro h n
    obtain ⟨last, hlast⟩ := Option.isSome_iff_exists.mp h
    rw [← take_append_drop n groups, flatten_append, run_append_eq_some] at hlast
    obtain ⟨next, hnext, -⟩ := hlast
    have hunits := run_units hnext
    have hempty : (empty : Pool K).units = 0 := rfl
    omega
  · intro h
    induction groups using List.reverseRecOn with
    | nil => rfl
    | append_singleton groups group ih =>
      have hbefore : ∀ n, taken (groups.take n).flatten ≤ added (groups.take n).flatten := by
        intro n
        by_cases hn : n ≤ groups.length
        · have hle := h n
          rwa [take_append_of_le_length hn] at hle
        · have hle := h groups.length
          rw [take_append_of_le_length (Nat.le_refl _)] at hle
          rwa [take_of_length_le (by omega), ← take_length (l := groups)]
      obtain ⟨pool, hpool⟩ := Option.isSome_iff_exists.mp
        (ih (fun g hg => honeWay g (mem_append_left _ hg)) hbefore)
      have hunits := run_units hpool
      have hall := h (groups.length + 1)
      rw [take_of_length_le (by simp)] at hall
      have hlast : (run pool group).isSome := by
        rcases honeWay group (by simp) with hadd | htake
        · exact run_adds hadd
        · have hnone : added group = 0 := by
            unfold added
            rw [sum_eq_zero_iff]
            intro units hmem
            obtain ⟨m, hm, rfl⟩ := mem_map.mp hmem
            obtain ⟨units, rfl⟩ := htake m hm
            rfl
          refine run_takes htake ?_
          simp only [flatten_append, flatten_cons,
            flatten_nil, append_nil, taken_append,
            added_append] at hall
          omega
      obtain ⟨last, hlast⟩ := Option.isSome_iff_exists.mp hlast
      refine Option.isSome_iff_exists.mpr ⟨last, ?_⟩
      rw [flatten_append, run_append_eq_some]
      exact ⟨pool, hpool, by simpa using hlast⟩

end Run

-- ==== the average

section Average

variable [Field K] [LinearOrder K] [IsStrictOrderedRing K]
  {pool pool' : Pool K} {m : Move K} {moves : List (Move K)} {lo hi : K}

def Bounded (lo hi : K) (pool : Pool K) : Prop :=
  lo * pool.units ≤ pool.worth ∧ pool.worth ≤ hi * pool.units

def Move.Within (lo hi : K) : Move K → Prop
  | .add _ unitCost => lo ≤ unitCost ∧ unitCost ≤ hi
  | .take _ => True

omit [IsStrictOrderedRing K] in
theorem bounded_empty : Bounded lo hi (empty : Pool K) := by simp [Bounded, empty]

theorem move_bounded (hpool : Bounded lo hi pool) (hm : m.Within lo hi)
    (h : move pool m = some pool') : Bounded lo hi pool' := by
  obtain ⟨hlo, hhi⟩ := hpool
  cases m with
  | add units unitCost =>
    cases h
    obtain ⟨hl, hh⟩ := hm
    unfold Bounded
    push_cast
    constructor
    · nlinarith
    · nlinarith
  | take units =>
    unfold move at h
    by_cases hle : units ≤ pool.units
    · simp only [if_pos hle, Option.some.injEq] at h
      subst h
      have hleft : (0 : K) ≤ ((pool.units - units : Nat) : K) := Nat.cast_nonneg _
      rcases Nat.eq_zero_or_pos pool.units with hzero | hpos
      · have hnone : pool.units - units = 0 := by omega
        simp [Bounded, hnone]
      · have hunits : (0 : K) < pool.units := Nat.cast_pos.mpr hpos
        have hlo' : lo ≤ pool.worth / pool.units := (le_div_iff₀ hunits).mpr hlo
        have hhi' : pool.worth / pool.units ≤ hi := (div_le_iff₀ hunits).mpr hhi
        exact ⟨mul_le_mul_of_nonneg_right hlo' hleft, mul_le_mul_of_nonneg_right hhi' hleft⟩
    · simp [hle] at h

theorem run_bounded (hpool : Bounded lo hi pool)
    (hmoves : ∀ m ∈ moves, m.Within lo hi) (h : run pool moves = some pool') :
    Bounded lo hi pool' := by
  induction moves generalizing pool with
  | nil =>
    cases h
    exact hpool
  | cons m moves ih =>
    obtain ⟨next, hmove, hrun⟩ := run_cons_eq_some.mp h
    exact ih (move_bounded hpool (hmoves m mem_cons_self) hmove)
      (fun m hm => hmoves m (mem_cons_of_mem _ hm)) hrun

theorem Bounded.average (h : Bounded lo hi pool) (hpos : 0 < pool.units) :
    lo ≤ pool.worth / pool.units ∧ pool.worth / pool.units ≤ hi := by
  have hunits : (0 : K) < pool.units := Nat.cast_pos.mpr hpos
  exact ⟨(le_div_iff₀ hunits).mpr h.1, (div_le_iff₀ hunits).mpr h.2⟩

end Average

end MarketRegimeAlpha.Lib.AverageCost
