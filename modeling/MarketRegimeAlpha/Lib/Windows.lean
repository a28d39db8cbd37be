/-
The last entries of a list.

# A bounded state is enough

`l.rtake n` are the last `n` entries of `l`, or all of them if there are fewer.
Who keeps the last `m` entries while new ones come in has the last `m` of them
all (`rtake_keep`), and every window of at most `m` entries is found in
what is kept (`rtake_rtake`).
-/
import Mathlib.Data.List.DropRight

namespace MarketRegimeAlpha.Lib

open List

variable {α β : Type _}

theorem length_rtake (n : Nat) (l : List α) : (l.rtake n).length = min n l.length := by
  unfold List.rtake
  rw [length_drop]
  omega

theorem map_rtake (f : α → β) (n : Nat) (l : List α) : (l.rtake n).map f = (l.map f).rtake n := by
  unfold List.rtake
  rw [map_drop, length_map]

theorem rtake_rtake {n m : Nat} (h : n ≤ m) (l : List α) : (l.rtake m).rtake n = l.rtake n := by
  unfold List.rtake
  rw [drop_drop, length_drop]
  congr 1
  omega

theorem rtake_keep (kept : Nat) (l : List α) (x : α) :
    (l.rtake kept ++ [x]).rtake kept = (l ++ [x]).rtake kept := by
  cases kept with
  | zero => exact (rtake_zero _).trans (rtake_zero _).symm
  | succ n =>
    have hshort := rtake_rtake (Nat.le_add_right n 1) l
    rw [rtake_concat_succ, rtake_concat_succ, hshort]

theorem getLast?_rtake {n : Nat} (h : n ≠ 0) (l : List α) : (l.rtake n).getLast? = l.getLast? := by
  unfold List.rtake
  rw [getLast?_drop]
  by_cases hl : l = []
  · subst hl
    simp
  · have hpos := length_pos_iff.mpr hl
    rw [if_neg (by omega)]

theorem rtake_sublist (n : Nat) (l : List α) : (l.rtake n).Sublist l := drop_sublist _ l

end MarketRegimeAlpha.Lib
