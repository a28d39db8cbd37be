/-
Database transactions over a store: a journal of the writes issued, an
error that aborts, and row updates that run a `BEFORE UPDATE` guard.

# The semantics

`Tx` is state, error and journal in one: run on a store it gives the
writes it issued, in order, and either the error that aborted it or its
value and the store it would commit. The store is dropped on an error,
so a transaction that raises commits nothing (`commit`), while its
journal still shows every write it issued, the rejected one included.

`update` is SQL's `UPDATE t SET f WHERE p RETURNING *` on a table whose
guard trigger sees the old and the new version of each matching row.
The rows are visited in order and the first rejection aborts.

# The rules

- `outcome` and its rules run a transaction forward: a read feeds what
  follows, a guard clause branches, and an update whose guard accepts
  every matching row is a plain map (`outcome_update`). An update whose
  only matching row is rejected aborts with that rejection
  (`outcome_update_reject`).
- `Audited`: every write issued is legal, or it is the rejected one. It
  holds of every transaction built from audited parts, so what a guard
  lets through is what the journal shows. Being a property of the text
  of the transaction, it needs no invariant of the store.
-/
import Mathlib.Data.List.Nodup

namespace MarketRegimeAlpha.Lib

open List

/-- A transaction on a store `σ`: the writes it issues, and the error
that aborts it or its value and the store it would commit. -/
def Tx (ω ε σ α : Type _) : Type _ := σ → List ω × Except ε (α × σ)

namespace Tx

variable {ω ε σ α β : Type _}

/-- The transaction that returns `a` and touches nothing. -/
def ret (a : α) : Tx ω ε σ α := fun s => ([], .ok (a, s))

/-- Run `x`, then `f` on its value in the store `x` leaves; an error of
`x` aborts. -/
def andThen (x : Tx ω ε σ α) (f : α → Tx ω ε σ β) : Tx ω ε σ β := fun s =>
  match x s with
  | (w, .error e) => (w, .error e)
  | (w, .ok (a, s')) => (w ++ (f a s').1, (f a s').2)

instance : Monad (Tx ω ε σ) where
  pure := ret
  bind := andThen

/-- Abort with `e`. -/
def raise (e : ε) : Tx ω ε σ α := fun _ => ([], .error e)

/-- Read the store through `f`: a `SELECT`. -/
def select (f : σ → α) : Tx ω ε σ α := fun s => ([], .ok (f s, s))

/-- Read the whole store. -/
def get : Tx ω ε σ σ := fun s => ([], .ok (s, s))

/-- Change the store without a guard: an `INSERT`. -/
def insert (f : σ → σ) : Tx ω ε σ Unit := fun s => ([], .ok ((), f s))

/-- Go on when `c` holds, abort with `e` when it does not. -/
def require (c : Prop) [Decidable c] (e : ε) : Tx ω ε σ Unit := if c then ret () else raise e

/-- Run fallible code that does not touch the store. -/
def ofExcept (x : Except ε α) : Tx ω ε σ α := fun s => ([], x.map fun a => (a, s))

/-- The writes issued, in order. -/
def journal (x : Tx ω ε σ α) (s : σ) : List ω := (x s).1

/-- The error raised, or the value returned and the store left. -/
def outcome (x : Tx ω ε σ α) (s : σ) : Except ε (α × σ) := (x s).2

/-- The store after the transaction: the one it leaves, or the old one
when it aborted. -/
def commit (x : Tx ω ε σ α) (s : σ) : σ :=
  match x.outcome s with
  | .ok (_, s') => s'
  | .error _ => s

-- ==== running forward

@[simp] theorem outcome_pure (a : α) (s : σ) : (pure a : Tx ω ε σ α).outcome s = .ok (a, s) := rfl

variable {x : Tx ω ε σ α} {f : α → Tx ω ε σ β}

theorem outcome_bind_error {s : σ}
    {e : ε} (h : x.outcome s = .error e) : (x >>= f).outcome s = .error e := by
  show (andThen x f s).2 = _
  unfold andThen
  split
  · next heq =>
      rw [outcome, heq] at h
      injection h with h
      rw [h]
  · next heq =>
      rw [outcome, heq] at h
      cases h

variable {s s' : σ}

theorem outcome_bind_ok {a : α} (h : x.outcome s = .ok (a, s')) :
    (x >>= f).outcome s = (f a).outcome s' := by
  show (andThen x f s).2 = _
  unfold andThen
  split
  · next heq =>
      rw [outcome, heq] at h
      cases h
  · next heq =>
      rw [outcome, heq] at h
      injection h with h
      injection h with h₁ h₂
      rw [h₁, h₂]
      rfl

/-- A `SELECT` feeds the value it reads to what follows. -/
@[simp] theorem outcome_select (g : σ → α) (f : α → Tx ω ε σ β) (s : σ) :
    (select g >>= f).outcome s = (f (g s)).outcome s :=
  outcome_bind_ok rfl

@[simp] theorem outcome_get (f : σ → Tx ω ε σ β) (s : σ) :
    (get >>= f).outcome s = (f s).outcome s :=
  outcome_bind_ok rfl

/-- An `INSERT` changes the store for what follows. -/
@[simp] theorem outcome_insert (g : σ → σ) (f : Unit → Tx ω ε σ β) (s : σ) :
    (insert g >>= f).outcome s = (f ()).outcome (g s) :=
  outcome_bind_ok rfl

@[simp] theorem outcome_require (c : Prop) [Decidable c] (e : ε) (f : Unit → Tx ω ε σ β) (s : σ) :
    (require c e >>= f).outcome s = if c then (f ()).outcome s else .error e := by
  unfold require
  split
  · exact outcome_bind_ok rfl
  · exact outcome_bind_error rfl

variable {c : Prop}

theorem outcome_require_pos [Decidable c] {e : ε} {f : Unit → Tx ω ε σ β} {s : σ} (hc : c) :
    (require c e >>= f).outcome s = (f ()).outcome s := by
  rw [outcome_require, if_pos hc]

theorem outcome_require_neg [Decidable c] {e : ε} {f : Unit → Tx ω ε σ β} {s : σ} (hc : ¬ c) :
    (require c e >>= f).outcome s = .error e := by
  rw [outcome_require, if_neg hc]

-- ==== running backward

/-- A successful bind ran its first part to a value and a store, and its
second part on them. -/
theorem outcome_bind_eq_ok {s : σ} {r : β × σ} : (x >>= f).outcome s = .ok r ↔
      ∃ a s', x.outcome s = .ok (a, s') ∧ (f a).outcome s' = .ok r := by
  cases hx : x.outcome s with
  | error e =>
    rw [outcome_bind_error hx]
    constructor
    · intro h
      cases h
    · rintro ⟨a, s', h, -⟩
      cases h
  | ok p =>
    rw [outcome_bind_ok (a := p.1) hx]
    constructor
    · intro h
      exact ⟨p.1, p.2, rfl, h⟩
    · rintro ⟨a, s', h, hf⟩
      cases h
      exact hf

@[simp] theorem outcome_ofExcept_eq_ok {x : Except ε α} {a : α} :
    (ofExcept x : Tx ω ε σ α).outcome s = .ok (a, s') ↔ x = .ok a ∧ s = s' := by
  unfold ofExcept outcome
  cases x with
  | error e => simp [Except.map]
  | ok b => simp only [Except.map, Except.ok.injEq, Prod.mk.injEq]

@[simp] theorem outcome_require_eq_ok [Decidable c] {e : ε} {u : Unit} :
    (require c e : Tx ω ε σ Unit).outcome s = .ok (u, s') ↔ c ∧ s = s' := by
  unfold require
  by_cases hc : c
  · rw [if_pos hc]
    constructor
    · intro h
      cases h
      exact ⟨hc, rfl⟩
    · rintro ⟨-, rfl⟩
      rfl
  · rw [if_neg hc]
    constructor
    · intro h
      cases h
    · exact fun h => absurd h.1 hc

@[simp] theorem outcome_pure_eq_ok {a b : α} :
    (pure a : Tx ω ε σ α).outcome s = .ok (b, s') ↔ a = b ∧ s = s' := by
  constructor
  · intro h
    cases h
    exact ⟨rfl, rfl⟩
  · rintro ⟨rfl, rfl⟩
    rfl

theorem outcome_drop_error {s : σ} {e : ε} :
    (x >>= fun _ => pure ()).outcome s = .error e ↔ x.outcome s = .error e := by
  cases hx : x.outcome s with
  | error e' => rw [outcome_bind_error hx]; simp
  | ok r => rw [outcome_bind_ok (a := r.1) hx]; simp

theorem outcome_drop_ok {a : α} (h : x.outcome s = .ok (a, s')) :
    (x >>= fun _ => pure ()).outcome s = .ok ((), s') :=
  outcome_bind_ok h

theorem commit_error {s : σ} {e : ε} (h : x.outcome s = .error e) : x.commit s = s := by
  unfold commit
  rw [h]

theorem commit_ok {a : α} (h : x.outcome s = .ok (a, s')) : x.commit s = s' := by
  unfold commit
  rw [h]

end Tx

-- ==== guarded row updates

/-- A table of the store under a guard trigger: its rows, how an update
of a row is journalled, and the error the guard raises on it, if
any. -/
structure Table (ω ε σ α : Type _) where
  rows : σ → List α
  put : List α → σ → σ
  note : α → α → ω
  guard : α → α → Option ε

variable {ω ε σ α β : Type _}

/-- Update the rows that match `p`, in order, under the guard. -/
def updateRows (T : Table ω ε σ α) (p : α → Bool) (f : α → α) : List α → List ω × Except ε (List α)
  | [] => ([], .ok [])
  | r :: rs =>
    if p r then
      match T.guard r (f r) with
      | some e => ([T.note r (f r)], .error e)
      | none =>
        match updateRows T p f rs with
        | (w, .error e) => (T.note r (f r) :: w, .error e)
        | (w, .ok rs') => (T.note r (f r) :: w, .ok (f r :: rs'))
    else
      match updateRows T p f rs with
      | (w, .error e) => (w, .error e)
      | (w, .ok rs') => (w, .ok (r :: rs'))

/-- `UPDATE t SET f WHERE p RETURNING *`. -/
def Tx.update (T : Table ω ε σ α) (p : α → Bool) (f : α → α) : Tx ω ε σ (List α) := fun s =>
  match updateRows T p f (T.rows s) with
  | (w, .error e) => (w, .error e)
  | (w, .ok rs) => (w, .ok (((T.rows s).filter p).map f, T.put rs s))

/-- The rows an accepted update leaves. -/
def setRows (p : α → Bool) (f : α → α) (rs : List α) : List α :=
  rs.map fun r => if p r then f r else r

variable {T : Table ω ε σ α} {p : α → Bool} {f : α → α}

theorem updateRows_eq : ∀ {rs : List α}, (∀ r ∈ rs, p r = true → T.guard r (f r) = none) →
      (updateRows T p f rs).2 = .ok (setRows p f rs) := by
  intro rs
  induction rs with
  | nil => intro _; rfl
  | cons r rs ih =>
    intro h
    have hrest := ih fun r' hr' => h r' (mem_cons_of_mem r hr')
    have hr := h r mem_cons_self
    match hrs : updateRows T p f rs with
    | (w, .error e) => rw [hrs] at hrest; cases hrest
    | (w, .ok rs') =>
      rw [hrs] at hrest
      injection hrest with hrest
      unfold updateRows
      rw [hrs, hrest]
      cases hp : p r with
      | false => simp [hp, setRows]
      | true => simp [hp, setRows, hr hp]

theorem updateRows_reject {r : α} {e : ε} (he : T.guard r (f r) = some e) :
    ∀ {rs : List α}, rs.filter p = [r] → (updateRows T p f rs).2 = .error e := by
  intro rs
  induction rs with
  | nil => intro h; simp at h
  | cons r' rs ih =>
    intro h
    cases hp : p r' with
    | false =>
      have hrest := ih (by simpa [hp] using h)
      match hrs : updateRows T p f rs with
      | (w, .error e') =>
        rw [hrs] at hrest
        unfold updateRows
        rw [hrs]
        simpa [hp] using hrest
      | (w, .ok rs') => rw [hrs] at hrest; cases hrest
    | true =>
      have hr : r' = r := by
        have h' : r' :: rs.filter p = [r] := by simpa [hp] using h
        exact (cons.inj h').1
      unfold updateRows
      simp [hr ▸ hp, hr, he]

theorem Tx.outcome_update {s : σ} (h : ∀ r ∈ T.rows s, p r = true → T.guard r (f r) = none)
    (g : List α → Tx ω ε σ β) :
    (update T p f >>= g).outcome s = (g (((T.rows s).filter p).map f)).outcome
          (T.put (setRows p f (T.rows s)) s) := by
  refine outcome_bind_ok ?_
  have hrows := updateRows_eq h
  unfold outcome update
  split
  · next heq => rw [heq] at hrows; cases hrows
  · next heq =>
      rw [heq] at hrows
      injection hrows with hrows
      rw [hrows]

/-- An update rejected on the one row it matches aborts the
transaction. -/
theorem Tx.outcome_update_reject {s : σ} {r : α} {e : ε} (he : T.guard r (f r) = some e)
    (hr : (T.rows s).filter p = [r]) (g : List α → Tx ω ε σ β) :
    (update T p f >>= g).outcome s = .error e := by
  refine outcome_bind_error ?_
  have hrows := updateRows_reject he hr
  unfold outcome update
  split
  · next heq =>
      rw [heq] at hrows
      injection hrows with hrows
      rw [hrows]
  · next heq => rw [heq] at hrows; cases hrows

-- ==== what the journal shows

/-- Every write a transaction issues is legal, or it is the one whose
rejection aborted it. -/
def Audited (legal : ω → Prop) (rejects : ε → Prop) (x : Tx ω ε σ α) :
    Prop :=
  ∀ s, (∀ w ∈ x.journal s, legal w) ∨ ∃ e, x.outcome s = .error e ∧ rejects e

namespace Audited

variable {legal : ω → Prop} {rejects : ε → Prop}

theorem silent {x : Tx ω ε σ α} (h : ∀ s, x.journal s = []) :
    Audited legal rejects x := by
  intro s
  left
  rw [h s]
  intro w hw
  cases hw

theorem pure (a : α) : Audited legal rejects (Pure.pure a : Tx ω ε σ α) := silent fun _ => rfl

theorem raise (e : ε) : Audited legal rejects (Tx.raise e : Tx ω ε σ α) := silent fun _ => rfl

theorem select (f : σ → α) : Audited legal rejects (Tx.select f : Tx ω ε σ α) := silent fun _ => rfl

theorem get : Audited legal rejects (Tx.get : Tx ω ε σ σ) := silent fun _ => rfl

theorem insert (f : σ → σ) : Audited legal rejects (Tx.insert f : Tx ω ε σ Unit) :=
  silent fun _ => rfl

theorem require (c : Prop) [Decidable c] (e : ε) :
    Audited legal rejects (Tx.require c e : Tx ω ε σ Unit) := by
  refine silent fun s => ?_
  unfold Tx.require
  split <;> rfl

/-- Audited parts make an audited whole. -/
theorem bind {x : Tx ω ε σ α} {f : α → Tx ω ε σ β}
    (hx : Audited legal rejects x) (hf : ∀ a, Audited legal rejects (f a)) :
    Audited legal rejects (x >>= f) := by
  intro s
  match hxs : x s with
  | (w, .error e) =>
    have hout : x.outcome s = .error e := by rw [Tx.outcome, hxs]
    have hjrn : (x >>= f).journal s = x.journal s := by
      show (Tx.andThen x f s).1 = (x s).1
      rw [Tx.andThen, hxs]
    rw [hjrn, Tx.outcome_bind_error hout]
    rcases hx s with h | ⟨e', he', hr⟩
    · exact Or.inl h
    · rw [hout] at he'
      injection he' with he'
      exact Or.inr ⟨e, rfl, he' ▸ hr⟩
  | (w, .ok (a, s')) =>
    have hout : x.outcome s = .ok (a, s') := by rw [Tx.outcome, hxs]
    have hjrn : (x >>= f).journal s = x.journal s ++ (f a).journal s' := by
      show (Tx.andThen x f s).1 = (x s).1 ++ (f a s').1
      rw [Tx.andThen, hxs]
    rw [hjrn, Tx.outcome_bind_ok hout]
    rcases hx s with h | ⟨e', he', -⟩
    · rcases hf a s' with h' | h'
      · left
        intro v hv
        rcases mem_append.mp hv with hv | hv
        · exact h v hv
        · exact h' v hv
      · exact Or.inr h'
    · rw [hout] at he'
      cases he'

/-- The rows of an update, one by one. -/
theorem rows {T : Table ω ε σ α} {p : α → Bool} {f : α → α}
    (hpass : ∀ r, T.guard r (f r) = none → legal (T.note r (f r)))
    (hfail : ∀ r e, T.guard r (f r) = some e → rejects e) :
    ∀ rs : List α, (∀ w ∈ (updateRows T p f rs).1, legal w)
      ∨ ∃ e, (updateRows T p f rs).2 = .error e ∧ rejects e := by
  intro rs
  induction rs with
  | nil => left; intro w hw; cases hw
  | cons r rs ih =>
    unfold updateRows
    split
    · cases hg : T.guard r (f r) with
      | some e => exact Or.inr ⟨e, rfl, hfail r e hg⟩
      | none =>
        match hrs : updateRows T p f rs with
        | (w, .error e) =>
          rw [hrs] at ih
          rcases ih with ih | ⟨e', he', hr⟩
          · left
            intro v hv
            rcases mem_cons.mp hv with rfl | hv
            · exact hpass r hg
            · exact ih v hv
          · exact Or.inr ⟨e', he', hr⟩
        | (w, .ok rs') =>
          rw [hrs] at ih
          rcases ih with ih | ⟨e', he', -⟩
          · left
            intro v hv
            rcases mem_cons.mp hv with rfl | hv
            · exact hpass r hg
            · exact ih v hv
          · cases he'
    · match hrs : updateRows T p f rs with
      | (w, .error e) => rw [hrs] at ih; exact ih
      | (w, .ok rs') =>
        rw [hrs] at ih
        rcases ih with ih | ⟨e', he', -⟩
        · exact Or.inl ih
        · cases he'

/-- A guarded update is audited when the guard passes only legal writes
and every error it raises is a rejection. -/
theorem update {T : Table ω ε σ α} {p : α → Bool} {f : α → α}
    (hpass : ∀ r, T.guard r (f r) = none → legal (T.note r (f r)))
    (hfail : ∀ r e, T.guard r (f r) = some e → rejects e) :
    Audited legal rejects (Tx.update T p f) := by
  intro s
  have h := rows (p := p) hpass hfail (T.rows s)
  unfold Tx.journal Tx.outcome Tx.update
  match hrs : updateRows T p f (T.rows s) with
  | (w, .error e) =>
    rw [hrs] at h
    rcases h with h | ⟨e', he', hr⟩
    · exact Or.inl h
    · injection he' with he'
      exact Or.inr ⟨e, rfl, he' ▸ hr⟩
  | (w, .ok rs') =>
    rw [hrs] at h
    rcases h with h | ⟨e', he', -⟩
    · exact Or.inl h
    · cases he'

end Audited

-- ==== keyed rows

section Keyed

variable {κ : Type _} {key : α → κ} {rs : List α} {p : α → Bool}

/-- In a table with distinct keys a predicate that pins the key matches
exactly one row. -/
theorem filter_keyed (hnd : (rs.map key).Nodup) {r : α} (hr : r ∈ rs) (hp : p r = true)
    (hkey : ∀ x ∈ rs, p x = true → key x = key r) :
    rs.filter p = [r] := by
  induction rs with
  | nil => cases hr
  | cons x xs ih =>
    rw [map_cons, nodup_cons] at hnd
    have hkey' : ∀ y ∈ xs, p y = true → key y = key r :=
      fun y hy => hkey y (mem_cons_of_mem x hy)
    rcases mem_cons.mp hr with rfl | hr
    · have hnone : xs.filter p = [] := by
        rw [filter_eq_nil_iff]
        intro y hy hpy
        exact hnd.1 (hkey' y hy hpy ▸ mem_map_of_mem hy)
      rw [filter_cons_of_pos hp, hnone]
    · have hx : ¬ p x = true := by
        intro hpx
        have := hkey x mem_cons_self hpx
        exact hnd.1 (this ▸ mem_map_of_mem hr)
      rw [filter_cons_of_neg hx]
      exact ih hnd.2 hr hkey'

theorem find?_keyed (hnd : (rs.map key).Nodup) {r : α} (hr : r ∈ rs) (hp : p r = true)
    (hkey : ∀ x ∈ rs, p x = true → key x = key r) :
    rs.find? p = some r := by
  rw [← head?_filter, filter_keyed hnd hr hp hkey]
  rfl

variable {f : α → α}

/-- Which rows an update touches is all that matters of its
predicate. -/
theorem setRows_congr {p q : α → Bool}
    (h : ∀ r ∈ rs, p r = q r) : setRows p f rs = setRows q f rs := by
  refine map_congr_left fun r hr => ?_
  rw [h r hr]

theorem map_setRows {g : α → β} (h : ∀ r, g (f r) = g r) (rs : List α) :
    (setRows p f rs).map g = rs.map g := by
  unfold setRows
  rw [map_map]
  refine map_congr_left fun r _ => ?_
  show g (if p r then f r else r) = g r
  split
  · exact h r
  · rfl

/-- An update that matches one row, and is accepted there, sets the row
with its key. -/
theorem Tx.outcome_update_one [DecidableEq κ] {T : Table ω ε σ α} {s : σ} {r : α}
    (hnd : ((T.rows s).map key).Nodup) (hr : r ∈ T.rows s)
    (hp : p r = true) (hkey : ∀ x ∈ T.rows s, p x = true → key x = key r)
    (hacc : T.guard r (f r) = none) (g : List α → Tx ω ε σ β) :
    (update T p f >>= g).outcome s = (g [f r]).outcome
          (T.put (setRows (fun x => key x == key r) f (T.rows s)) s) := by
  have hone := filter_keyed hnd hr hp hkey
  have hiff : ∀ x ∈ T.rows s, p x = (key x == key r) := by
    intro x hx
    rw [Bool.eq_iff_iff, beq_iff_eq]
    refine ⟨hkey x hx, fun h => ?_⟩
    rw [inj_on_of_nodup_map hnd hx hr h]
    exact hp
  rw [outcome_update, hone, setRows_congr hiff]
  · rfl
  · intro x hx hpx
    have hxr := inj_on_of_nodup_map hnd hx hr (hkey x hx hpx)
    rw [hxr]
    exact hacc

theorem setRows_none (h : ∀ r ∈ rs, p r = false) : setRows p f rs = rs := by
  unfold setRows
  rw [map_congr_left (g := id) fun r hr => by simp [h r hr], map_id]

theorem setRows_setRows {f f' : α → α} (h : ∀ r, p (f r) = p r) (rs : List α) :
    setRows p f' (setRows p f rs) = setRows p (f' ∘ f) rs := by
  unfold setRows
  rw [map_map]
  refine map_congr_left fun r _ => ?_
  by_cases hp : p r = true
  · simp [hp, h]
  · simp [hp]

theorem filter_setRows {p q : α → Bool} (h : ∀ r, q (f r) = q r) (rs : List α) :
    (setRows p f rs).filter q = setRows p f (rs.filter q) := by
  unfold setRows
  rw [filter_map]
  congr 1
  refine filter_congr fun r _ => ?_
  show q (if p r then f r else r) = q r
  split
  · exact h r
  · rfl

theorem setRows_last [DecidableEq κ] {r : α} (hnd : ((rs ++ [r]).map key).Nodup) :
    setRows (fun x => key x == key r) f (rs ++ [r]) = rs ++ [f r] := by
  have hrs : setRows (fun x => key x == key r) f rs = rs := by
    refine setRows_none fun x hx => beq_eq_false_iff_ne.mpr ?_
    rw [map_append, nodup_append] at hnd
    exact hnd.2.2 _ (mem_map_of_mem hx) _ (by simp)
  have happ : setRows (fun x => key x == key r) f (rs ++ [r])
      = setRows (fun x => key x == key r) f rs ++ [f r] := by
    unfold setRows
    simp
  rw [happ, hrs]

theorem mem_setRows {r : α} : r ∈ setRows p f rs ↔ ∃ r₀ ∈ rs, (if p r₀ then f r₀ else r₀) = r := by
  unfold setRows
  rw [mem_map]

end Keyed

end MarketRegimeAlpha.Lib
