/-
A trading account at cost: cash, the book value of what is held, and
the profit and loss that sales have realized.

# The entries

An acquisition moves its whole cost from cash to the book. A disposal
takes the cost basis of what is sold out of the book, brings its
proceeds into cash, and realizes the difference. Both leave the capital
paid in, `cash + book - realized`, as it is: every entry balances, and
so does every run of entries (`capital_of_posts`): what is in cash and
at cost was paid in or realized (`cash_add_book`).
-/
import Mathlib.Tactic.Abel
import MarketRegimeAlpha.Lib.Reach

namespace MarketRegimeAlpha.Lib

variable {M : Type _} [AddCommGroup M]

/-- The three totals of a trading account. -/
@[ext] structure Account (M : Type _) where
  (cash book realized : M)

/-- An entry: what was paid for an acquisition, or the cost basis of a
disposal and what it brought in. -/
inductive Entry (M : Type _) where
  | acquire (cost : M)
  | dispose (basis proceeds : M)

namespace Account

/-- The account after an entry. -/
def post : Entry M → Account M → Account M
  | .acquire cost, a => { a with cash := a.cash - cost, book := a.book + cost }
  | .dispose basis proceeds, a =>
    { cash := a.cash + proceeds
      book := a.book - basis
      realized := a.realized + (proceeds - basis) }

variable (a : Account M)

def capital : M := a.cash + a.book - a.realized

theorem cash_add_book : a.cash + a.book = a.capital + a.realized := by
  rw [capital, sub_add_cancel]

@[simp] theorem capital_post (e : Entry M) (a : Account M) : (post e a).capital = a.capital := by
  cases e with
  | acquire cost =>
    simp only [capital, post]
    abel
  | dispose basis proceeds =>
    simp only [capital, post]
    abel

/-- The second account is the first after some entries. -/
def Posts (a b : Account M) : Prop := ∃ entries, b = run post a entries

theorem Posts.refl : Posts a a := ⟨[], rfl⟩

theorem Posts.one (e : Entry M) (a : Account M) : Posts a (post e a) := ⟨[e], rfl⟩

theorem Posts.trans {a b c : Account M} (hab : Posts a b) (hbc : Posts b c) :
    Posts a c := by
  obtain ⟨es, rfl⟩ := hab
  obtain ⟨es', rfl⟩ := hbc
  exact ⟨es ++ es', by simp [run]⟩

theorem capital_of_posts {a b : Account M} (h : Posts a b) : b.capital = a.capital := by
  obtain ⟨es, rfl⟩ := h
  induction es generalizing a with
  | nil => rfl
  | cons e es ih => rw [run_cons, ih, capital_post]

end Account

end MarketRegimeAlpha.Lib
