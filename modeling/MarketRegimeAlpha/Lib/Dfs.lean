/-
Depth-first cycle check: the recursive `visit` with its two sets, and
the rank that a check which returns hands out.

`visiting` is the set of keys on the current path and `visited` the set
of keys whose successors are all done; a key met again while it is on
the path is a cycle. `visited` is kept in the order in which the keys
were finished, latest first, so the tail behind a key holds everything
that was finished before it. That order is the whole content of the
check: `Finished` says each key's successors lie in the tail behind it,
`visit_finished` that a visit keeps it, and `rank_lt` reads off a rank
that every edge decreases.

The recursion carries fuel. The path holds distinct keys, so one more
than the number of keys is always enough (`visit_fuel`). A visit that
does meet its own path has found a key that reaches itself
(`visit_cycle`), since every key of the path reaches the one visited; so
a check fails on no graph without a cycle (`check_acyclic`).
-/
import Mathlib.Data.List.Perm.Subperm

namespace MarketRegimeAlpha.Lib.Dfs

open List

-- ==== the check

/-- Why a visit stops: it met a key of its own path, or its fuel ran
out. -/
inductive Fault where
  | cycle
  | outOfFuel
  deriving DecidableEq

variable {κ : Type _} [DecidableEq κ]

/-- Visit `key` on the path `visiting`, and add it to `visited` once its
successors are. -/
def visit (succ : κ → List κ) : Nat → List κ → List κ → κ → Except Fault (List κ)
  | 0, _, _, _ => .error .outOfFuel
  | fuel + 1, visiting, visited, key =>
    if key ∈ visiting then .error .cycle
    else if key ∈ visited then .ok visited
    else
      match (succ key).foldlM (visit succ fuel (key :: visiting)) visited with
      | .error e => .error e
      | .ok visited' => .ok (key :: visited')

/-- Visit every key in turn, from an empty path. -/
def check (succ : κ → List κ) (keys : List κ) : Except Fault (List κ) :=
  keys.foldlM (visit succ (keys.length + 1) []) []

-- ==== the finishing order

/-- Each key's successors were finished before it. -/
def Finished (succ : κ → List κ) : List κ → Prop
  | [] => True
  | k :: ks => (∀ s ∈ succ k, s ∈ ks) ∧ Finished succ ks

/-- The number of keys finished up to the first time `k` was. -/
def rank : List κ → κ → Nat
  | [], _ => 0
  | _ :: xs, k => if k ∈ xs then rank xs k else xs.length + 1

theorem rank_le (v : List κ) (k : κ) : rank v k ≤ v.length := by
  induction v with
  | nil => exact Nat.le_refl 0
  | cons x xs ih =>
    unfold rank
    split
    · exact Nat.le_succ_of_le ih
    · exact Nat.le_refl _

variable {succ : κ → List κ} {v : List κ} {k s : κ}

omit [DecidableEq κ] in
theorem mem_of_finished (hv : Finished succ v) (hk : k ∈ v) (hs : s ∈ succ k) : s ∈ v := by
  induction v with
  | nil => cases hk
  | cons x xs ih =>
    rcases mem_cons.mp hk with rfl | hk
    · exact mem_cons_of_mem _ (hv.1 s hs)
    · exact mem_cons_of_mem _ (ih hv.2 hk)

theorem rank_lt (hv : Finished succ v) (hk : k ∈ v) (hs : s ∈ succ k) : rank v s < rank v k := by
  induction v with
  | nil => cases hk
  | cons x xs ih =>
    obtain ⟨hx, hxs⟩ := hv
    by_cases hmem : k ∈ xs
    · -- `k` was finished earlier, and so was `s` before it
      have hlt := ih hxs hmem
      have hs' : s ∈ xs := mem_of_finished hxs hmem hs
      simpa only [rank, if_pos hmem, if_pos hs'] using hlt
    · have hkx : k = x := (mem_cons.mp hk).resolve_right hmem
      have hs' : s ∈ xs := hx s (hkx ▸ hs)
      simp only [rank, if_neg hmem, if_pos hs']
      exact Nat.lt_succ_of_le (rank_le xs s)

-- ==== what a visit leaves behind

/-- What a run of visits does to the finished keys: it keeps their
order, drops none, and finishes the keys it was given. -/
structure Extends (succ : κ → List κ) (keys v v' : List κ) : Prop where
  finished : Finished succ v'
  keeps : ∀ k ∈ v, k ∈ v'
  adds : ∀ k ∈ keys, k ∈ v'

omit [DecidableEq κ] in
theorem foldlM_extends {f : List κ → κ → Except Fault (List κ)}
    (hf : ∀ v k v', Finished succ v → f v k = .ok v' → Extends succ [k] v v') :
    ∀ {keys v v' : List κ}, Finished succ v → keys.foldlM f v = .ok v' →
      Extends succ keys v v' := by
  intro keys
  induction keys with
  | nil =>
    intro v v' hv h
    have hvv : v = v' := by simpa [pure, Except.pure] using h
    subst hvv
    exact ⟨hv, fun _ hk => hk, fun _ hk => by cases hk⟩
  | cons k ks ih =>
    intro v v' hv h
    rw [foldlM_cons] at h
    cases hk : f v k with
    | error e => rw [hk] at h; cases h
    | ok v₁ =>
      rw [hk] at h
      have h₁ := hf v k v₁ hv hk
      have h₂ := ih h₁.finished h
      refine ⟨h₂.finished, fun x hx => h₂.keeps x (h₁.keeps x hx), ?_⟩
      intro x hx
      rcases mem_cons.mp hx with rfl | hx
      · exact h₂.keeps _ (h₁.adds _ mem_cons_self)
      · exact h₂.adds x hx

/-- A visit that returns keeps the finishing order and finishes its
key. -/
theorem visit_finished : ∀ (fuel : Nat) (visiting v : List κ) (k : κ)
    {v' : List κ}, Finished succ v →
      visit succ fuel visiting v k = .ok v' → Extends succ [k] v v' := by
  intro fuel
  induction fuel with
  | zero => intro _ _ _ _ _ h; cases h
  | succ fuel ih =>
    intro visiting v k v' hv h
    unfold visit at h
    split at h
    · cases h
    · split at h
      · next hmem =>
          injection h with h
          subst h
          exact ⟨hv, fun _ hk => hk, fun x hx => by rw [mem_singleton.mp hx]; exact hmem⟩
      · split at h
        · cases h
        · next v₁ hfold =>
            injection h with h
            subst h
            have h₁ := foldlM_extends (fun v k v' hv h => ih (k := k) _ v hv h) hv hfold
            refine ⟨⟨h₁.adds, h₁.finished⟩, ?_, ?_⟩
            · exact fun x hx => mem_cons_of_mem _ (h₁.keeps x hx)
            · intro x hx
              rw [mem_singleton.mp hx]
              exact mem_cons_self

/-- A check that returns has ranked the keys: every edge between them
goes down. -/
theorem check_rank {keys v : List κ} (h : check succ keys = .ok v) :
    ∀ k ∈ keys, ∀ s ∈ succ k, rank v s < rank v k := by
  intro k hk s hs
  have hext : Extends succ keys [] v :=
    foldlM_extends (fun v k v' hv h => visit_finished _ _ v k hv h) trivial h
  exact rank_lt hext.finished (hext.adds k hk) hs

-- ==== the fuel is enough

theorem foldlM_error {α β ε : Type _} {f : β → α → Except ε β} {e : ε} :
    ∀ {l : List α} {b : β}, l.foldlM f b = .error e → ∃ a ∈ l, ∃ b', f b' a = .error e := by
  intro l
  induction l with
  | nil => intro b h; cases h
  | cons a l ih =>
    intro b h
    rw [foldlM_cons] at h
    cases ha : f b a with
    | error e' =>
      rw [ha] at h
      injection h with h
      subst h
      exact ⟨a, mem_cons_self, b, ha⟩
    | ok b₁ =>
      rw [ha] at h
      obtain ⟨x, hx, b', hb'⟩ := ih h
      exact ⟨x, mem_cons_of_mem _ hx, b', hb'⟩

variable {keys : List κ} (hclosed : ∀ k ∈ keys, ∀ s ∈ succ k, s ∈ keys)

include hclosed in
/-- The path holds distinct keys, so fuel for one more than the keys off
it never runs out. -/
theorem visit_fuel : ∀ (fuel : Nat) (visiting v : List κ) (k : κ), k ∈ keys →
      visiting.Nodup → visiting ⊆ keys →
      keys.length < visiting.length + fuel →
      visit succ fuel visiting v k ≠ .error .outOfFuel := by
  intro fuel
  induction fuel with
  | zero =>
    intro visiting v k _ hnd hsub hlen
    have hle := (subperm_of_subset hnd hsub).length_le
    omega
  | succ fuel ih =>
    intro visiting v k hk hnd hsub hlen h
    unfold visit at h
    split at h
    · cases h
    · next hnot =>
        split at h
        · cases h
        · split at h
          · next e hfold =>
              injection h with h
              subst h
              obtain ⟨s, hs, v', hv'⟩ := foldlM_error hfold
              refine ih (k :: visiting) v' s (hclosed k hk s hs) (nodup_cons.mpr ⟨hnot, hnd⟩)
                (cons_subset.mpr ⟨hk, hsub⟩) ?_ hv'
              rw [length_cons]
              omega
          · cases h

include hclosed in
/-- On a graph closed under successors the only fault of a check is a
cycle. -/
theorem check_fault {e : Fault} (h : check succ keys = .error e) : e = .cycle := by
  obtain ⟨k, hk, v, hv⟩ := foldlM_error h
  cases e with
  | cycle => rfl
  | outOfFuel =>
    refine absurd hv (visit_fuel hclosed _ [] v k hk nodup_nil (nil_subset _) ?_)
    omega

-- ==== what a cycle found is

def Edge (succ : κ → List κ) (a b : κ) : Prop := b ∈ succ a

/-- A visit that meets a cycle, every key of whose path reaches the key
visited, has found a key that reaches itself. -/
theorem visit_cycle : ∀ (fuel : Nat) (visiting v : List κ) (k : κ),
    (∀ p ∈ visiting, Relation.TransGen (Edge succ) p k) →
      visit succ fuel visiting v k = .error .cycle →
      ∃ c, Relation.TransGen (Edge succ) c c := by
  intro fuel
  induction fuel with
  | zero =>
    intro visiting v k _ h
    cases h
  | succ fuel ih =>
    intro visiting v k hpath h
    unfold visit at h
    split at h
    · next hmem => exact ⟨k, hpath k hmem⟩
    · split at h
      · cases h
      · split at h
        · next e hfold =>
            injection h with h
            subst h
            obtain ⟨s, hs, v', hv'⟩ := foldlM_error hfold
            have hedge : Edge succ k s := hs
            apply ih (k :: visiting) v' s ?_ hv'
            intro p hp
            rcases mem_cons.mp hp with rfl | hp
            · exact .single hedge
            · exact (hpath p hp).tail hedge
        · cases h

include hclosed in
theorem check_acyclic (hacyclic : ∀ k, ¬ Relation.TransGen (Edge succ) k k) :
    ∃ v, check succ keys = .ok v := by
  cases h : check succ keys with
  | ok v => exact ⟨v, rfl⟩
  | error e =>
    obtain ⟨k, -, v, hv⟩ := foldlM_error h
    rw [check_fault hclosed h] at hv
    obtain ⟨c, hc⟩ := visit_cycle _ [] v k (fun p hp => by cases hp) hv
    exact absurd hc (hacyclic c)

end MarketRegimeAlpha.Lib.Dfs
