/-
Finite relations laid out in a list: an order in which everything an entry leads
to comes before it, and the cycle that keeps a list from having one.

# Two sides

In a list without repetition that has everything an entry leads to before it
(`Preceded`), no entry leads back to itself (`Preceded.acyclic`). And where every
entry of a list leads to another of the list, one of them leads to itself
(`exists_cycle`), since a finite relation without a cycle has an end.
-/
import Mathlib.Data.Set.Finite.List

namespace MarketRegimeAlpha.Lib

open List

variable {κ : Type _} {R : κ → κ → Prop} {l : List κ}

/-- Everything an entry leads to comes before it. -/
def Preceded (R : κ → κ → Prop) (l : List κ) : Prop :=
  ∀ front a back, l = front ++ a :: back → ∀ b, R a b → b ∈ front

theorem Preceded.nil (R : κ → κ → Prop) : Preceded R [] := by
  intro front a back h
  simp at h

theorem Preceded.append (h : Preceded R l) {more : List κ}
    (hmore : ∀ a ∈ more, ∀ b, R a b → b ∈ l) : Preceded R (l ++ more) := by
  intro front a back hsplit b hb
  obtain ⟨mid, rfl, hmid⟩ | ⟨mid, hl, hback⟩ := append_eq_append_iff.mp hsplit
  · have ha : a ∈ more := by
      rw [hmid]
      simp
    exact mem_append_left _ (hmore a ha b hb)
  · cases mid with
    | nil =>
      rw [append_nil] at hl
      have ha : a ∈ more := by
        rw [nil_append] at hback
        rw [← hback]
        exact mem_cons_self
      rw [← hl]
      exact hmore a ha b hb
    | cons a' mid =>
      injection hback with hhead
      exact h front a mid (by rw [hl, hhead]) b hb

theorem Preceded.of_path (h : Preceded R l) {front back : List κ} {a b : κ}
    (hsplit : l = front ++ a :: back) (hpath : Relation.TransGen R a b) :
    b ∈ front := by
  induction hpath with
  | single hb => exact h front a back hsplit _ hb
  | tail _ hc ih =>
    obtain ⟨before, after, rfl⟩ := append_of_mem ih
    refine mem_append_left _ (h before _ (after ++ a :: back) ?_ _ hc)
    rw [hsplit, append_assoc, cons_append]

theorem Preceded.acyclic (h : Preceded R l) (hnodup : l.Nodup) {a : κ} (ha : a ∈ l) :
    ¬ Relation.TransGen R a a := by
  intro hcycle
  obtain ⟨front, back, hsplit⟩ := append_of_mem ha
  have hmem := h.of_path hsplit hcycle
  rw [hsplit] at hnodup
  exact (nodup_append.mp hnodup).2.2 a hmem a mem_cons_self rfl

theorem exists_cycle (hne : l ≠ []) (h : ∀ a ∈ l, ∃ b ∈ l, R a b) :
    ∃ a ∈ l, Relation.TransGen R a a := by
  by_contra hno
  push Not at hno
  have hfinite : Finite {a // a ∈ l} := finite_toSet l
  let below (a b : {a // a ∈ l}) : Prop := Relation.TransGen R b.1 a.1
  have hirrefl : Std.Irrefl below := ⟨fun a => hno a.1 a.2⟩
  have hwf : WellFounded below := Finite.wellFounded_of_trans_of_irrefl below
  obtain ⟨a, ha⟩ := exists_mem_of_ne_nil l hne
  obtain ⟨⟨m, hm⟩, -, hmin⟩ := hwf.has_min Set.univ ⟨⟨a, ha⟩, trivial⟩
  obtain ⟨b, hb, hmb⟩ := h m hm
  exact hmin ⟨b, hb⟩ trivial (.single hmb)

end MarketRegimeAlpha.Lib
