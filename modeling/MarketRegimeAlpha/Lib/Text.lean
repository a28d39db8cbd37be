/-
Texts that can be read back: numbers in decimal digits, at their own
width or padded to a fixed one.

A text is told apart before whatever follows it. A padded number needs no
end (`pad_append_inj`), and digits of no fixed width need one that is not
a digit (`digits_append_inj`).
-/
import Mathlib

namespace MarketRegimeAlpha.Lib

open List

/-- The decimal digits of a number. -/
def digits (n : Nat) : List Char := Nat.toDigits 10 n

/-- What follows does not go on with a digit. -/
def NoDigit (rest : List Char) : Prop := ∀ c ∈ rest.head?, c.isDigit = false

theorem isDigit_of_mem_digits {n : Nat} {c : Char} (hc : c ∈ digits n) : c.isDigit = true :=
  Nat.isDigit_of_mem_toDigits (by decide) (by decide) hc

theorem digits_ne_nil (n : Nat) : digits n ≠ [] := Nat.toDigits_ne_nil

@[simp] theorem ofDigitChars_digits (n : Nat) : Nat.ofDigitChars 10 (digits n) 0 = n :=
  Nat.ofDigitChars_ten_toDigits

theorem digits_inj {n m : Nat} (h : digits n = digits m) : n = m := by
  rw [← ofDigitChars_digits n, h, ofDigitChars_digits]

theorem takeWhile_digits {l rest : List Char}
    (hl : ∀ c ∈ l, c.isDigit = true) (hrest : NoDigit rest) :
    (l ++ rest).takeWhile Char.isDigit = l := by
  rw [takeWhile_append_of_pos hl]
  cases rest with
  | nil => simp
  | cons c rest =>
    have hc : c.isDigit = false := hrest c rfl
    simp [hc]

variable {rest rest' : List Char}

theorem digits_append_inj {n m : Nat} (hrest : NoDigit rest)
    (hrest' : NoDigit rest') (h : digits n ++ rest = digits m ++ rest') : n = m ∧ rest = rest' := by
  have htake := congrArg (List.takeWhile Char.isDigit) h
  rw [takeWhile_digits (fun c => isDigit_of_mem_digits) hrest,
    takeWhile_digits (fun c => isDigit_of_mem_digits) hrest'] at htake
  rw [htake] at h
  exact ⟨digits_inj htake, append_cancel_left h⟩

-- ==== padded numbers

/-- `%0wd`. -/
def pad (w n : Nat) : List Char := List.replicate (w - (digits n).length) '0' ++ digits n

theorem ofDigitChars_pad (w n : Nat) : Nat.ofDigitChars 10 (pad w n) 0 = n := by
  unfold pad
  rw [Nat.ofDigitChars_append, Nat.ofDigitChars_replicate_zero, Nat.mul_zero, ofDigitChars_digits]

theorem length_pad {w n : Nat} (hw : 0 < w) (hn : n < 10 ^ w) : (pad w n).length = w := by
  have hlength : (digits n).length ≤ w := (Nat.length_toDigits_le_iff (by decide) hw).mpr hn
  unfold pad
  rw [length_append, length_replicate]
  omega

theorem pad_append_inj {w n m : Nat} (hw : 0 < w) (hn : n < 10 ^ w)
    (hm : m < 10 ^ w) (h : pad w n ++ rest = pad w m ++ rest') : n = m ∧ rest = rest' := by
  have hlength : (pad w n).length = (pad w m).length := by rw [length_pad hw hn, length_pad hw hm]
  obtain ⟨hpad, hrest⟩ := append_inj h hlength
  refine ⟨?_, hrest⟩
  rw [← ofDigitChars_pad w n, hpad, ofDigitChars_pad]

-- ==== texts with a separator

section Joined

variable {α : Type} [LinearOrder α] {sep : α}

/-- Two texts with a separator behind them are in the order of the texts, unless the
first goes on in the second with what comes before the separator. -/
theorem joined_lt_iff : ∀ {a b : List α} {v w : List α}, a < b → sep ∉ b →
    (a ++ sep :: v < b ++ sep :: w ↔ ∀ c rest, b = a ++ c :: rest → sep < c)
  | [], [], _, _, h, _ => absurd h (not_lt_nil _)
  | [], c :: b, _, _, _, hsep => by
    have hc : sep ≠ c := fun heq => hsep (heq ▸ mem_cons_self)
    rw [nil_append, cons_append, cons_lt_cons_iff]
    constructor
    · rintro (hlt | ⟨heq, -⟩) c' rest hb
      · rw [nil_append] at hb
        injection hb with hcc
        rwa [← hcc]
      · exact absurd heq hc
    · exact fun h => .inl (h c b rfl)
  | _ :: _, [], _, _, h, _ => absurd h (not_lt_nil _)
  | x :: a, y :: b, _, _, h, hsep => by
    rw [cons_append, cons_append, cons_lt_cons_iff]
    rcases cons_lt_cons_iff.mp h with hxy | ⟨rfl, hab⟩
    · refine iff_of_true (.inl hxy) fun c rest hb => ?_
      injection hb with hyx
      exact absurd hyx hxy.ne'
    · rw [or_iff_right (lt_irrefl x), and_iff_right rfl,
        joined_lt_iff hab fun hmem => hsep (mem_cons_of_mem x hmem)]
      constructor
      · intro hall c rest hb
        injection hb with _ hb
        exact hall c rest hb
      · intro hall c rest hb
        exact hall c rest (congrArg (x :: ·) hb)

end Joined
end MarketRegimeAlpha.Lib
