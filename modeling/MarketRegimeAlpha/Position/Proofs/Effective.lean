/-
The effective Fills, without the loop: the executions, each replaced by its
correction, in the order of their occurrence.
-/
import MarketRegimeAlpha.Lib.Corrections
import MarketRegimeAlpha.Lib.Dict
import MarketRegimeAlpha.Position.Authority

namespace MarketRegimeAlpha.Position

open Lib List

def Fill.correctionOfFillId (fill : Fill) : Option String :=
  match fill.fillKind with
  | .execution => none
  | .correction target => some target

/-- The dictionaries of `_effective_fills` after some of the Fills. -/
structure SeenFills (seen : List Fill)
    (dicts : List (String × Fill) × List (String × Fill)) : Prop where
  executions : dicts.1 = (originals Fill.correctionOfFillId seen).map
    fun fill => (fill.fillId, fill)
  corrections : ∀ key, dicts.2.lookup key = seen.find? (·.correctionOfFillId = some key)

/-- One more Fill, with an identifier of its own. -/
theorem SeenFills.step {seen : List Fill} {fill : Fill}
    {dicts dicts' : List (String × Fill) × List (String × Fill)} (h : SeenFills seen dicts)
    (hfresh : fill.fillId ∉ seen.map (·.fillId)) (hstep : effectiveStep dicts fill = .ok dicts') :
    SeenFills (seen ++ [fill]) dicts' := by
  unfold effectiveStep at hstep
  cases hkind : fill.fillKind with
  | execution =>
    simp only [hkind] at hstep
    cases hstep
    have htarget : fill.correctionOfFillId = none := by
      unfold Fill.correctionOfFillId
      rw [hkind]
    constructor
    case executions =>
      have hnone : dicts.1.lookup fill.fillId = none := by
        rw [h.executions, lookup_map_self, find?_eq_none]
        intro other hother
        have hmem := (mem_originals.mp hother).1
        have hne : other.fillId ≠ fill.fillId := fun heq => hfresh (heq ▸ mem_map_of_mem hmem)
        simpa using hne
      unfold setItem originals
      rw [hnone, if_neg (by simp), filter_append, map_append,
        filter_cons_of_pos (by simpa using htarget), h.executions]
      rfl
    case corrections =>
      intro key
      rw [find?_append, find?_cons_of_neg (by simp [htarget]), h.corrections]
      simp
  | correction target =>
    have htarget : fill.correctionOfFillId = some target := by
      unfold Fill.correctionOfFillId
      rw [hkind]
    simp only [hkind] at hstep
    cases hlookup : dicts.1.lookup target with
    | none => simp [hlookup] at hstep
    | some original =>
      simp only [hlookup, bind_ok, require_ok, pure_ok] at hstep
      obtain ⟨_, hnone, _, -, rfl⟩ := hstep
      rw [Option.isNone_iff_eq_none, h.corrections] at hnone
      constructor
      case executions =>
        unfold originals
        rw [filter_append, filter_cons_of_neg (by simp [htarget]), filter_nil,
          append_nil]
        exact h.executions
      case corrections =>
        intro key
        rw [lookup_setItem, find?_append]
        by_cases hkey : key = target
        · subst hkey
          rw [if_pos rfl, hnone, find?_cons_of_pos (by simp [htarget])]
          rfl
        · rw [if_neg hkey, h.corrections, find?_cons_of_neg]
          · simp
          · simpa [htarget] using Ne.symm hkey

/-- The effective Fills of Fills that are corrected at most once. -/
theorem effectiveFills_eq {fills effective : List Fill}
    (hcorrected : Corrected (·.fillId) Fill.correctionOfFillId fills)
    (h : effectiveFills fills = .ok effective) :
    effective = sortBy occurredKey (Lib.effective (·.fillId) Fill.correctionOfFillId fills) := by
  simp only [effectiveFills, bind_ok, pure_ok] at h
  obtain ⟨⟨executions, corrections⟩, hloop, rfl⟩ := h
  have hperm := (sortBy_perm recordedKey fills).symm
  have hordered := hcorrected.perm hperm
  generalize hsort : sortBy recordedKey fills = ordered at *
  have hinv := foldlM_inv (I := fun rest dicts => ∃ seen, seen ++ rest = ordered
      ∧ SeenFills seen dicts)
    (fun fill rest dicts dicts' hI hstep => by
      obtain ⟨seen, hsplit, hseen⟩ := hI
      refine ⟨seen ++ [fill], by simpa using hsplit, hseen.step ?_ hstep⟩
      have hids := hordered.ids
      rw [← hsplit, map_append, map_cons] at hids
      exact fun hmem => (nodup_append.mp hids).2.2 _ hmem _ mem_cons_self rfl)
    ⟨[], rfl, ⟨rfl, fun _ => rfl⟩⟩ hloop
  obtain ⟨seen, hsplit, hexecutions, hcorrections⟩ := hinv
  rw [append_nil] at hsplit
  subst hsplit
  rw [hexecutions, map_map]
  have hmap : (originals Fill.correctionOfFillId seen).map
      ((fun item : String × Fill => (corrections.lookup item.1).getD item.2)
        ∘ fun fill => (fill.fillId, fill))
      = Lib.effective (·.fillId) Fill.correctionOfFillId seen :=
    map_congr_left fun fill _ => congrArg (Option.getD · fill) (hcorrections fill.fillId)
  refine (congrArg _ hmap).trans ?_
  refine sortBy_eq_of_perm (effective_perm hordered hperm.symm) ?_
  refine Nodup.of_map (fun key => (ofLex key).2) ?_
  rw [map_map]
  exact effective_ids hordered

end MarketRegimeAlpha.Position
