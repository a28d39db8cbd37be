/-
When `_effective_fills` resolves the corrections: exactly when none is
recorded at the very instant of its execution under an identifier that
sorts before the execution's.

# One pass over one order

Executions and corrections are taken in one pass, in the order of
`(recorded_at, fill_id)`, so a correction finds its execution only when
that order has the execution first (`recordedKey_lt_iff`). A correction
is never recorded before its execution, so what is left to go wrong is a
tie of the two instants, which the identifiers then break, either way.
Two passes, executions first, would not ask for it.

`Resolves` is what the function is for: one Fill for each execution, its
correction where there is one, in the order of their occurrence, from
the Fills in any order.
-/
import MarketRegimeAlpha.Position.Proofs.Effective
import MarketRegimeAlpha.Position.Proofs.Project

namespace MarketRegimeAlpha.Position

open Lib List

variable {fills fills' : List Fill}

-- ==== the question

/-- Fills with identifiers of their own, of which each correction names
an execution of the same trade, account and symbol recorded no later, and
no two name the same one. -/
structure Resolvable (fills : List Fill) : Prop where
  ids : (fills.map (·.fillId)).Nodup
  named : ∀ fill ∈ fills, ∀ target, fill.fillKind = .correction target →
    ∃ original ∈ fills, original.fillId = target ∧ original.fillKind = .execution
      ∧ original.manualTradeId = fill.manualTradeId
      ∧ original.accountId = fill.accountId
      ∧ original.symbol = fill.symbol
      ∧ original.recordedAt ≤ fill.recordedAt
  once : ∀ fill ∈ fills, ∀ other ∈ fills, ∀ target, fill.fillKind = .correction target →
      other.fillKind = .correction target → fill = other

/-- One Fill for each execution, its correction where there is one, in
the order of `(occurred_at, fill_id)`, and the same whatever the order of
the input. -/
structure Resolves (fills : List Fill) : Prop where
  value : effectiveFills fills = .ok (sortBy occurredKey
    (effective (·.fillId) Fill.correctionOfFillId fills))
  perm : ∀ fills', fills'.Perm fills → effectiveFills fills' = effectiveFills fills

/-- A correction recorded at the instant of its execution has the greater
identifier. -/
def TiesInOrder (fills : List Fill) : Prop :=
  ∀ fill ∈ fills, ∀ original ∈ fills, fill.fillKind = .correction original.fillId →
      original.recordedAt = fill.recordedAt → original.fillId < fill.fillId

/-- No correction is recorded at the instant of its execution. -/
def NoTies (fills : List Fill) : Prop :=
  ∀ fill ∈ fills, ∀ original ∈ fills, fill.fillKind = .correction original.fillId →
      original.recordedAt ≠ fill.recordedAt

-- ==== resolvable Fills

variable {fill : Fill} {target : String}

theorem correctionOfFillId_eq_some :
    fill.correctionOfFillId = some target ↔ fill.fillKind = .correction target := by
  unfold Fill.correctionOfFillId
  cases fill.fillKind with
  | execution => simp
  | correction t => simp

theorem correctionOfFillId_eq_none :
    fill.correctionOfFillId = none ↔ fill.fillKind = .execution := by
  unfold Fill.correctionOfFillId
  cases fill.fillKind with
  | execution => simp
  | correction t => simp

variable (h : Resolvable fills)

include h in
theorem Resolvable.eq_of_id {a b : Fill}
    (ha : a ∈ fills) (hb : b ∈ fills) (hid : a.fillId = b.fillId) : a = b :=
  inj_on_of_nodup_map h.ids ha hb hid

include h in
theorem Resolvable.perm (hp : fills.Perm fills') : Resolvable fills' := by
  constructor
  case ids => exact (hp.map _).nodup_iff.mp h.ids
  case named =>
    intro fill hfill target htarget
    obtain ⟨original, horiginal, hrest⟩ := h.named fill (hp.mem_iff.mpr hfill) target htarget
    exact ⟨original, hp.mem_iff.mp horiginal, hrest⟩
  case once =>
    intro fill hfill other hother
    exact h.once fill (hp.mem_iff.mpr hfill) other (hp.mem_iff.mpr hother)

include h in
theorem Resolvable.corrected : Corrected (·.fillId) Fill.correctionOfFillId fills := by
  constructor
  case ids => exact h.ids
  case once =>
    have hnodup : fills.Nodup := h.ids.of_map
    unfold List.Nodup
    rw [pairwise_filterMap]
    apply List.Pairwise.imp_of_mem ?_ hnodup
    intro a b ha hb hab t hat t' hbt heq
    subst heq
    exact hab (h.once a ha b hb t (correctionOfFillId_eq_some.mp hat)
      (correctionOfFillId_eq_some.mp hbt))
  case known =>
    intro fill hfill target htarget
    obtain ⟨original, horiginal, hid, hkind, -⟩ := h.named fill hfill target
      (correctionOfFillId_eq_some.mp htarget)
    exact ⟨original, horiginal, hid, correctionOfFillId_eq_none.mpr hkind⟩

-- ==== the pass

/-- A correction comes after its execution exactly when a tie of their
instants is broken that way. -/
theorem recordedKey_lt_iff {original fill : Fill} (hle : original.recordedAt ≤ fill.recordedAt) :
    recordedKey original < recordedKey fill ↔ (original.recordedAt = fill.recordedAt →
          original.fillId < fill.fillId) := by
  unfold recordedKey
  rw [Prod.Lex.toLex_lt_toLex]
  constructor
  · rintro (hlt | ⟨-, hlt⟩) heq
    · exact absurd heq hlt.ne
    · exact hlt
  · intro h
    rcases hle.lt_or_eq with hlt | heq
    · exact .inl hlt
    · exact .inr ⟨heq, h heq⟩

variable {dicts : List (String × Fill) × List (String × Fill)} {seen rest : List Fill}

/-- What the dictionary of executions holds of a resolvable run of
Fills. -/
theorem SeenFills.lookup_execution {seen : List Fill}
    (h : SeenFills seen dicts) (hids : (seen.map (·.fillId)).Nodup)
    {original : Fill} : dicts.1.lookup original.fillId = some original
      ↔ original ∈ seen ∧ original.fillKind = .execution := by
  rw [h.executions, lookup_map_self]
  constructor
  · intro hfind
    obtain ⟨hmem, htarget⟩ := mem_originals.mp (mem_of_find?_eq_some hfind)
    exact ⟨hmem, correctionOfFillId_eq_none.mp htarget⟩
  · rintro ⟨hmem, hkind⟩
    have horiginal : original ∈ originals Fill.correctionOfFillId seen :=
      mem_originals.mpr ⟨hmem, correctionOfFillId_eq_none.mpr hkind⟩
    have hsome : ((originals Fill.correctionOfFillId seen).find?
        (·.fillId = original.fillId)).isSome := by
      rw [find?_isSome]
      exact ⟨original, horiginal, by simp⟩
    obtain ⟨found, hfound⟩ := Option.isSome_iff_exists.mp hsome
    have hid : found.fillId = original.fillId := by simpa using find?_some hfound
    have hseen := (mem_originals.mp (mem_of_find?_eq_some hfound)).1
    rw [hfound, inj_on_of_nodup_map hids hseen hmem hid]

/-- A correction that comes after its execution is taken. -/
theorem SeenFills.step_ok (h : SeenFills seen dicts) (hall : Resolvable (seen ++ fill :: rest))
    (hbefore : ∀ original ∈ seen ++ fill :: rest,
      fill.fillKind = .correction original.fillId → original ∈ seen) :
    ∃ dicts', effectiveStep dicts fill = .ok dicts' := by
  have hmem : fill ∈ seen ++ fill :: rest := by simp
  have hids : (seen.map (·.fillId)).Nodup := by
    have := hall.ids
    rw [map_append] at this
    exact this.of_append_left
  unfold effectiveStep
  cases hkind : fill.fillKind with
  | execution => exact ⟨_, rfl⟩
  | correction target =>
    obtain ⟨original, horiginal, rfl, hexecution, htrade, haccount,
      hsymbol, -⟩ := hall.named fill hmem target hkind
    have hseen := hbefore original horiginal hkind
    have hlookup := (h.lookup_execution hids).mpr ⟨hseen, hexecution⟩
    have hfresh : (dicts.2.lookup original.fillId).isNone := by
      rw [Option.isNone_iff_eq_none, h.corrections, find?_eq_none]
      intro other hother htarget
      have hsame := hall.once fill hmem other (mem_append_left _ hother) original.fillId hkind
        (correctionOfFillId_eq_some.mp (of_decide_eq_true htarget))
      subst hsame
      have := hall.ids
      rw [map_append, map_cons, nodup_append] at this
      exact this.2.2 _ (mem_map_of_mem hother) _ mem_cons_self rfl
    have hscope : fill.manualTradeId = original.manualTradeId ∧ fill.accountId = original.accountId
        ∧ fill.symbol = original.symbol :=
      ⟨htrade.symm, haccount.symm, hsymbol.symm⟩
    simp only [hlookup, require_true hfresh, require_true hscope, ok_bind]
    exact ⟨_, rfl⟩

/-- Where every correction comes after its execution, the pass takes them
all. -/
theorem effectiveLoop_ok {ordered : List Fill} (hall : Resolvable ordered)
    (hbefore : ∀ seen fill rest, seen ++ fill :: rest = ordered →
      ∀ original ∈ ordered, fill.fillKind = .correction original.fillId → original ∈ seen) :
    ∀ (rest seen : List Fill) (dicts : List (String × Fill)
      × List (String × Fill)), seen ++ rest = ordered → SeenFills seen dicts →
        ∃ dicts', rest.foldlM effectiveStep dicts = .ok dicts' := by
  intro rest
  induction rest with
  | nil => exact fun _ dicts _ _ => ⟨dicts, rfl⟩
  | cons fill rest ih =>
    intro seen dicts hsplit hseen
    obtain ⟨dicts', hstep⟩ := hseen.step_ok (hsplit ▸ hall) (hsplit ▸ hbefore seen fill rest hsplit)
    have hfresh : fill.fillId ∉ seen.map (·.fillId) := by
      have := hall.ids
      rw [← hsplit, map_append, map_cons, nodup_append] at this
      exact fun hmem => this.2.2 _ hmem _ mem_cons_self rfl
    rw [foldlM_cons, hstep]
    exact ih (seen ++ [fill]) dicts' (by simpa using hsplit) (hseen.step hfresh hstep)

/-- A correction the pass has taken comes after its execution. -/
theorem effectiveLoop_before {fill original : Fill} (hall : Resolvable (seen ++ fill :: rest))
    (h : (seen ++ fill :: rest).foldlM effectiveStep ([], []) = .ok dicts)
    (horiginal : original ∈ seen ++ fill :: rest)
    (hkind : fill.fillKind = .correction original.fillId) :
    original ∈ seen := by
  rw [foldlM_append, bind_ok] at h
  obtain ⟨mid, hseenLoop, hrest⟩ := h
  rw [foldlM_cons, bind_ok] at hrest
  obtain ⟨_, hstep, -⟩ := hrest
  have hids := hall.ids
  rw [map_append] at hids
  have hseen := foldlM_inv (I := fun left dicts => ∃ done, done ++ left = seen
      ∧ SeenFills done dicts)
    (fun f left dicts dicts' hI hstep => by
      obtain ⟨done, hsplit, hdone⟩ := hI
      refine ⟨done ++ [f], by simpa using hsplit, hdone.step ?_ hstep⟩
      have hnodup := hids.of_append_left
      rw [← hsplit, map_append, map_cons, nodup_append] at hnodup
      exact fun hmem => hnodup.2.2 _ hmem _ mem_cons_self rfl)
    ⟨[], rfl, ⟨rfl, fun _ => rfl⟩⟩ hseenLoop
  obtain ⟨done, hsplit, hdone⟩ := hseen
  rw [append_nil] at hsplit
  subst hsplit
  unfold effectiveStep at hstep
  rw [hkind] at hstep
  cases hlookup : mid.1.lookup original.fillId with
  | none => simp [hlookup] at hstep
  | some found =>
    have hfind := hlookup
    rw [hdone.executions, lookup_map_self] at hfind
    have hid : found.fillId = original.fillId := by simpa using find?_some hfind
    have hmem := (mem_originals.mp (mem_of_find?_eq_some hfind)).1
    have := hall.eq_of_id (mem_append_left _ hmem) horiginal hid
    exact this ▸ hmem

-- ==== the answer

include h in
/-- `_effective_fills` resolves the corrections exactly when every tie of
a correction with its execution is broken in favour of the execution. -/
theorem resolves_iff : Resolves fills ↔ TiesInOrder fills := by
  have hperm := (sortBy_perm recordedKey fills).symm
  have hordered := h.perm hperm
  have hsorted := sortBy_pairwise recordedKey fills
  constructor
  · intro hres fill hfill original horiginal hkind heq
    have hok := hres.value
    simp only [effectiveFills, bind_ok] at hok
    obtain ⟨dicts, hloop, -⟩ := hok
    generalize sortBy recordedKey fills = ordered at *
    obtain ⟨seen, rest, rfl⟩ := append_of_mem (hperm.mem_iff.mp hfill)
    have hseen := effectiveLoop_before hordered hloop (hperm.mem_iff.mp horiginal) hkind
    -- the execution stands before its correction in the sorted list
    have hle := (pairwise_append.mp hsorted).2.2 original hseen fill mem_cons_self
    have hne : original ≠ fill := by
      rintro rfl
      exact original.not_self hkind
    rcases hle.lt_or_eq with hlt | hsame
    · exact (recordedKey_lt_iff heq.le).mp hlt heq
    · have hid : original.fillId = fill.fillId := congrArg (fun key => (ofLex key).2) hsame
      exact absurd (h.eq_of_id horiginal hfill hid) hne
  · intro hties
    have hloop : ∃ dicts, (sortBy recordedKey fills).foldlM effectiveStep ([], []) = .ok dicts := by
      refine effectiveLoop_ok hordered ?_ _ [] ([], []) rfl ⟨rfl, fun _ => rfl⟩
      intro seen fill rest hsplit original horiginal hkind
      have hfill : fill ∈ sortBy recordedKey fills := by
        rw [← hsplit]
        simp
      obtain ⟨named, hnamed, hid, -, -, -, -, hle⟩ := hordered.named fill hfill _ hkind
      have := hordered.eq_of_id hnamed horiginal hid
      subst this
      have hlt := (recordedKey_lt_iff hle).mpr fun heq => hties fill
        (hperm.mem_iff.mpr hfill) named (hperm.mem_iff.mpr horiginal) hkind heq
      rw [← hsplit] at horiginal hsorted
      rcases mem_append.mp horiginal with hseen | hrest
      · exact hseen
      · rcases mem_cons.mp hrest with rfl | hrest
        · exact absurd hlt (lt_irrefl _)
        · have hback := (pairwise_cons.mp (pairwise_append.mp hsorted).2.1).1 named hrest
          exact absurd hlt (not_lt_of_ge hback)
    constructor
    case value =>
      obtain ⟨⟨executions, corrections⟩, hloop⟩ := hloop
      have hok : effectiveFills fills = .ok (sortBy occurredKey
          (executions.map fun item =>
            (corrections.lookup item.1).getD item.2)) := by
        unfold effectiveFills
        rw [hloop]
        rfl
      rw [hok, effectiveFills_eq h.corrected hok]
    case perm =>
      intro fills' hp
      have hkeys : (fills'.map recordedKey).Nodup := by
        refine Nodup.of_map (fun key => (ofLex key).2) ?_
        rw [map_map]
        exact (hp.map (·.fillId)).nodup_iff.mpr h.ids
      unfold effectiveFills
      rw [sortBy_eq_of_perm hp hkeys]

-- ==== renaming

variable (ρ : Equiv.Perm String)

def FillKind.rename : FillKind → FillKind
  | .execution => .execution
  | .correction target => .correction (ρ target)

theorem FillKind.rename_eq_correction {ρ : Equiv.Perm String} {kind : FillKind} :
    kind.rename ρ = .correction (ρ target) ↔ kind = .correction target := by
  cases kind with
  | execution => simp [FillKind.rename]
  | correction t => simp [FillKind.rename]

def Fill.rename (fill : Fill) : Fill :=
  { fill with
    fillId := ρ fill.fillId
    fillKind := fill.fillKind.rename ρ
    not_self := fun h => fill.not_self (FillKind.rename_eq_correction.mp h) }

include h in
theorem Resolvable.rename (ρ : Equiv.Perm String) : Resolvable (fills.map (·.rename ρ)) := by
  have htarget : ∀ {fill : Fill} {target : String}, (fill.rename ρ).fillKind = .correction target →
        fill.fillKind = .correction (ρ.symm target) := by
    intro fill target hkind
    rw [← ρ.apply_symm_apply target] at hkind
    exact FillKind.rename_eq_correction.mp hkind
  constructor
  case ids =>
    have hmap : (fills.map (·.rename ρ)).map (·.fillId) = (fills.map (·.fillId)).map ρ := by
      rw [map_map, map_map]
      rfl
    rw [hmap]
    exact h.ids.map ρ.injective
  case named =>
    intro fill hfill target hkind
    obtain ⟨source, hsource, rfl⟩ := mem_map.mp hfill
    obtain ⟨original, horiginal, hid, hexecution, hrest⟩ := h.named source hsource _ (htarget hkind)
    refine ⟨original.rename ρ, mem_map_of_mem horiginal, ?_, ?_, hrest⟩
    · show ρ original.fillId = target
      rw [hid, ρ.apply_symm_apply]
    · show original.fillKind.rename ρ = .execution
      rw [hexecution]
      rfl
  case once =>
    intro fill hfill other hother target hkind hkind'
    obtain ⟨source, hsource, rfl⟩ := mem_map.mp hfill
    obtain ⟨source', hsource', rfl⟩ := mem_map.mp hother
    rw [h.once source hsource source' hsource' _ (htarget hkind) (htarget hkind')]

theorem NoTies.rename (h : NoTies fills) (ρ : Equiv.Perm String) :
    NoTies (fills.map (·.rename ρ)) := by
  intro fill hfill original horiginal hkind
  obtain ⟨source, hsource, rfl⟩ := mem_map.mp hfill
  obtain ⟨source', hsource', rfl⟩ := mem_map.mp horiginal
  exact h source hsource source' hsource' (FillKind.rename_eq_correction.mp hkind)

/-- Of resolvable Fills, `_effective_fills` resolves the corrections
exactly when each tie of a correction with its execution has the greater
identifier on the correction; and whatever the identifiers are, exactly
when there is no such tie. -/
theorem effectiveFills_resolves_iff (fills : List Fill) (h : Resolvable fills) :
    (Resolves fills ↔ TiesInOrder fills)
      ∧ ((∀ ρ : Equiv.Perm String, Resolves (fills.map (·.rename ρ))) ↔ NoTies fills) := by
  refine ⟨resolves_iff h, ?_⟩
  constructor
  · intro hall fill hfill original horiginal hkind heq
    -- the names as they are, and the two of the tie swapped
    have hties : ∀ ρ : Equiv.Perm String, ρ original.fillId < ρ fill.fillId := by
      intro ρ
      exact (resolves_iff (h.rename ρ)).mp (hall ρ) (fill.rename ρ)
        (mem_map_of_mem hfill) (original.rename ρ)
        (mem_map_of_mem horiginal)
        (FillKind.rename_eq_correction.mpr hkind) heq
    have hkept := hties (Equiv.refl String)
    have hswapped := hties (Equiv.swap original.fillId fill.fillId)
    rw [Equiv.swap_apply_left, Equiv.swap_apply_right] at hswapped
    exact lt_asymm hkept hswapped
  · intro hno ρ
    apply (resolves_iff (h.rename ρ)).mpr
    intro fill hfill original horiginal hkind heq
    exact absurd heq (hno.rename ρ fill hfill original horiginal hkind)

theorem effectiveFills_resolves_iff_sample : (Resolves sampleFills ↔ TiesInOrder sampleFills)
      ∧ ((∀ ρ : Equiv.Perm String, Resolves (sampleFills.map (·.rename ρ)))
        ↔ NoTies sampleFills) := by
  refine effectiveFills_resolves_iff sampleFills ?_
  constructor
  case ids => decide +kernel
  case named =>
    intro fill hfill target hkind
    simp only [sampleFills, mem_cons, not_mem_nil, or_false] at hfill
    rcases hfill with rfl | rfl | rfl | rfl
    · cases hkind
    · cases hkind
    · cases hkind
      exact ⟨_, mem_cons_of_mem _ mem_cons_self, rfl, rfl, rfl,
        rfl, rfl, by decide +kernel⟩
    · cases hkind
  case once =>
    intro fill hfill other hother target hkind hkind'
    simp only [sampleFills, mem_cons, not_mem_nil, or_false] at hfill hother
    rcases hfill with rfl | rfl | rfl | rfl
    · cases hkind
    · cases hkind
    · rcases hother with rfl | rfl | rfl | rfl
      · cases hkind'
      · cases hkind'
      · rfl
      · cases hkind'
    · cases hkind

/-- An execution and its correction recorded at one instant, the
correction under the smaller identifier. -/
def tiedFills : List Fill :=
  [sampleFill "fill-b" .buy 100 10 0 .execution hundred_shares price_ten (FillKind.execution_ne _),
    sampleFill "fill-a" .buy 200 10 0 (.correction "fill-b") (Nat.succ_pos 199)
      price_ten (by decide)]

/-- The tied correction is taken for one of an unknown execution. -/
theorem tied_correction_refused : ¬ ∀ fills, Resolvable fills → Resolves fills := by
  intro h
  have hresolvable : Resolvable tiedFills := by
    constructor
    case ids => decide +kernel
    case named =>
      intro fill hfill target hkind
      simp only [tiedFills, mem_cons, not_mem_nil, or_false] at hfill
      rcases hfill with rfl | rfl
      · cases hkind
      · cases hkind
        exact ⟨_, mem_cons_self, rfl, rfl, rfl, rfl, rfl, le_refl _⟩
    case once =>
      intro fill hfill other hother target hkind hkind'
      simp only [tiedFills, mem_cons, not_mem_nil, or_false] at hfill hother
      rcases hfill with rfl | rfl
      · cases hkind
      · rcases hother with rfl | rfl
        · cases hkind'
        · rfl
  have hvalue := (h tiedFills hresolvable).value
  have hrefused : effectiveFills tiedFills = .error (.valueError
      "correction Fill references unknown execution Fill") := by
    decide +kernel
  cases hvalue

end MarketRegimeAlpha.Position
