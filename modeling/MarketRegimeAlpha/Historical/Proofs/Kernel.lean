/-
The kernel stage by stage: what one `run_next` adds, and that running on
from where the stages so far have led is running from the beginning.

# Progress

`Progress request completed` says that `completed` is where the kernel
has got to on `request`: each receipt is what `run_next` made of those
before it. Whoever holds such receipts and asks for the next one takes
one turn of the kernel's own loop, so `run` from them is `run` from
nothing (`Progress.run_eq`); where no turn is left, they are its result
(`Progress.run_of_ended`).
-/
import MarketRegimeAlpha.Historical.Session

namespace MarketRegimeAlpha.Historical

open Lib List

-- ==== the receipts

/-- A receipt that its own checks accept, at a whole second. -/
structure Formed (hash : ReceiptIdentity → Digest)
    (receipt : ResearchSessionStageReceipt) : Prop where
  construct_eq : ResearchSessionStageReceipt.construct hash receipt = .ok receipt
  second_eq : normalizeCanonicalDatetime receipt.completedAt = receipt.completedAt

@[simp] theorem normalizeCanonicalDatetime_idem (t : Instant) :
    normalizeCanonicalDatetime (normalizeCanonicalDatetime t) = normalizeCanonicalDatetime t := by
  unfold normalizeCanonicalDatetime
  rw [Int.mul_ediv_cancel _ (by decide)]

theorem construct_eq {hash : ReceiptIdentity → Digest}
    {receipt receipt' : ResearchSessionStageReceipt}
    (h : ResearchSessionStageReceipt.construct hash receipt = .ok receipt') :
    receipt' = receipt := by
  unfold ResearchSessionStageReceipt.construct at h
  simp only [bind_ok, require_ok, pure_ok] at h
  obtain ⟨-, -, -, -, -, -, -, -, -, -, -, -, -, -, -, -, rfl⟩ := h
  rfl

namespace Formed

variable {hash : ReceiptIdentity → Digest} {receipt : ResearchSessionStageReceipt}

theorem inputs_sorted (h : Formed hash receipt) :
    receipt.inputReferences = sortedReferences receipt.inputReferences := by
  have hc := h.construct_eq
  unfold ResearchSessionStageReceipt.construct at hc
  simp only [bind_ok, require_ok, pure_ok] at hc
  obtain ⟨-, -, -, -, -, hsorted, -⟩ := hc
  exact hsorted

theorem outputs_sorted (h : Formed hash receipt) :
    receipt.outputReferences = sortedReferences receipt.outputReferences := by
  have hc := h.construct_eq
  unfold ResearchSessionStageReceipt.construct at hc
  simp only [bind_ok, require_ok, pure_ok] at hc
  obtain ⟨-, -, -, -, -, -, -, hsorted, -⟩ := hc
  exact hsorted

theorem fromCanonicalDict_eq (h : Formed hash receipt) :
    ResearchSessionStageReceipt.fromCanonicalDict hash receipt.toCanonicalDict = .ok receipt := by
  have hdict : receipt.toCanonicalDict = receipt := by
    unfold ResearchSessionStageReceipt.toCanonicalDict
    rw [h.second_eq]
  unfold ResearchSessionStageReceipt.fromCanonicalDict
  rw [hdict, ← h.inputs_sorted, ← h.outputs_sorted]
  exact h.construct_eq

end Formed

/-- What `create` binds a receipt to. -/
structure Binds (request : ResearchDecisionSessionRequest) (stage : ResearchSessionStage)
    (predecessors : List ResearchSessionStageReceipt)
    (receipt : ResearchSessionStageReceipt) : Prop where
  session_eq : receipt.sessionId = request.sessionId
  hash_eq : receipt.sessionHash = request.sessionHash
  stage_eq : receipt.stage = stage
  ids_eq : receipt.predecessorReceiptIds = predecessors.map (·.receiptId)
  hashes_eq : receipt.predecessorReceiptHashes = predecessors.map (·.receiptHash)

variable {request : ResearchDecisionSessionRequest}

theorem create_ok {hash : ReceiptIdentity → Digest} {stage : ResearchSessionStage}
    {predecessors : List ResearchSessionStageReceipt}
    {computation : SessionStageComputation}
    {receipt : ResearchSessionStageReceipt}
    (h : ResearchSessionStageReceipt.create hash request stage predecessors
      computation = .ok receipt) :
    Formed hash receipt ∧ Binds request stage predecessors receipt := by
  have heq := construct_eq h
  refine ⟨⟨?_, ?_⟩, ?_⟩
  · rw [heq] at h ⊢
    exact h
  · rw [heq]
    exact normalizeCanonicalDatetime_idem _
  · rw [heq]
    exact ⟨rfl, rfl, rfl, rfl, rfl⟩

-- ==== the prefix

/-- `_validate_prefix` accepts a run of stages each bound to those before
it. -/
theorem validatePrefix_ok_iff {completed : List ResearchSessionStageReceipt} :
    Kernel.validatePrefix request completed = .ok ()
      ↔ completed.map (·.stage) = stages.take completed.length ∧ ∀ i, ∀ h : i < completed.length,
          Binds request completed[i].stage (completed.take i) completed[i] := by
  unfold Kernel.validatePrefix
  simp only [bind_ok, require_ok, exists_const, forM_eq_forM, forM_ok]
  constructor
  · rintro ⟨hstages, hall⟩
    refine ⟨hstages, fun i hi => ?_⟩
    have hmem : (completed[i], i) ∈ completed.zipIdx :=
      mk_mem_zipIdx_iff_getElem?.mpr (getElem?_eq_getElem hi)
    have hreceipt := hall _ hmem
    unfold Kernel.validateReceipt at hreceipt
    simp only [bind_ok, require_ok] at hreceipt
    obtain ⟨-, ⟨hid, hhash⟩, hids, hhashes⟩ := hreceipt
    exact ⟨hid, hhash, rfl, hids, hhashes⟩
  · rintro ⟨hstages, hall⟩
    refine ⟨hstages, ?_⟩
    rintro ⟨receipt, i⟩ hmem
    obtain ⟨hi, hget⟩ := List.getElem?_eq_some_iff.mp (mk_mem_zipIdx_iff_getElem?.mp hmem)
    have hbinds := hall i hi
    rw [hget] at hbinds
    unfold Kernel.validateReceipt
    simp only [bind_ok, require_ok]
    exact ⟨(), ⟨hbinds.session_eq, hbinds.hash_eq⟩, hbinds.ids_eq, hbinds.hashes_eq⟩

-- ==== one turn

section Turn

variable {platform : Platform} {request : ResearchDecisionSessionRequest}
  {completed computed : List ResearchSessionStageReceipt}

@[simp] theorem length_stages : stages.length = 6 := rfl

variable {stage : ResearchSessionStage} {n : Nat}

theorem stageAt_ok (h : stageAt n = .ok stage) : stages[n]? = some stage := by
  unfold stageAt at h
  split at h
  · next hstage =>
      injection h with h
      rw [hstage, h]
  · cases h

theorem ordinal_of_stage (h : stages[n]? = some stage) : stage.ordinal = n + 1 := by
  obtain ⟨hn, hget⟩ := List.getElem?_eq_some_iff.mp h
  have hnodup : stages.Nodup := by decide
  unfold ResearchSessionStage.ordinal
  rw [← hget, hnodup.idxOf_getElem]

theorem ordinal_le (stage : ResearchSessionStage) : stage.ordinal ≤ 6 := by cases stage <;> decide

theorem ordinal_lt (h : stage ≠ .performance) : stage.ordinal < 6 := by
  revert h
  cases stage <;> decide

theorem runNext_ok (hlength : completed.length < 6) (hcontinues : Kernel.continues completed = true)
    (h : Kernel.runNext platform request completed = .ok computed) :
    ∃ receipt stage, computed = completed ++ [receipt] ∧ stages[completed.length]? = some stage
      ∧ Formed platform.receiptHash receipt
      ∧ Binds request stage completed receipt := by
  unfold Kernel.runNext at h
  rw [if_neg (by rw [length_stages]; omega), if_neg (not_not.mpr hcontinues)] at h
  simp only [bind_ok, pure_ok] at h
  obtain ⟨-, -, stage, hstage, computation, -, -, -, receipt, hcreate,
    rfl⟩ := h
  obtain ⟨hformed, hbinds⟩ := create_ok hcreate
  exact ⟨receipt, stage, rfl, stageAt_ok hstage, hformed, hbinds⟩

theorem validatePrefix_append {receipt : ResearchSessionStageReceipt}
    (hvalid : Kernel.validatePrefix request completed = .ok ())
    (hstage : stages[completed.length]? = some stage)
    (hbinds : Binds request stage completed receipt) :
    Kernel.validatePrefix request (completed ++ [receipt]) = .ok () := by
  rw [validatePrefix_ok_iff] at hvalid ⊢
  obtain ⟨hstages, hall⟩ := hvalid
  constructor
  · rw [map_append, hstages, length_append, length_singleton,
      take_add_one, hstage]
    simp [hbinds.stage_eq]
  · intro i hi
    rw [length_append, length_singleton] at hi
    rcases Nat.lt_succ_iff_lt_or_eq.mp hi with hlt | rfl
    · rw [getElem_append_left hlt, take_append_of_le_length (by omega)]
      exact hall i hlt
    · simp only [getElem_concat_length, take_left']
      rw [hbinds.stage_eq]
      exact hbinds

end Turn

-- ==== progress

/-- `completed` is where the kernel has got to on `request`. -/
inductive Progress (platform : Platform) (request : ResearchDecisionSessionRequest) :
    List ResearchSessionStageReceipt → Prop
  | nothing : Progress platform request []
  | turn {completed : List ResearchSessionStageReceipt} {receipt : ResearchSessionStageReceipt} :
      Progress platform request completed → completed.length < 6 →
      Kernel.continues completed = true →
      Kernel.runNext platform request completed = .ok (completed ++ [receipt]) →
      Progress platform request (completed ++ [receipt])

namespace Progress

variable {platform : Platform} {request : ResearchDecisionSessionRequest}
  {completed : List ResearchSessionStageReceipt}

variable (h : Progress platform request completed)

include h in
theorem valid : Kernel.validatePrefix request completed = .ok ()
      ∧ ∀ receipt ∈ completed, Formed platform.receiptHash receipt := by
  induction h with
  | nothing =>
    refine ⟨validatePrefix_ok_iff.mpr ⟨rfl, ?_⟩, ?_⟩
    · intro i hi
      cases hi
    · intro receipt hreceipt
      cases hreceipt
  | @turn completed receipt _ hlength hcontinues hturn ih =>
    obtain ⟨receipt', stage, heq, hstage, hformed, hbinds⟩ := runNext_ok hlength hcontinues hturn
    obtain rfl : receipt = receipt' := by simpa using heq
    refine ⟨validatePrefix_append ih.1 hstage hbinds, ?_⟩
    intro other hother
    rcases mem_append.mp hother with hother | hother
    · exact ih.2 other hother
    · rw [mem_singleton.mp hother]
      exact hformed

include h in
theorem stages_eq : completed.map (·.stage) = stages.take completed.length :=
  (validatePrefix_ok_iff.mp h.valid.1).1

include h in
theorem run_eq_loop : Kernel.run platform request completed
      = Kernel.loop platform request (6 - completed.length) completed := by
  unfold Kernel.run
  rw [h.valid.1, ok_bind, length_stages]

include h in
/-- Running on from where the kernel has got to is running from the
beginning. -/
theorem run_eq : Kernel.run platform request completed = Kernel.run platform request [] := by
  induction h with
  | nothing => rfl
  | @turn completed receipt hprogress hlength hcontinues hturn ih =>
    rw [← ih, hprogress.run_eq_loop, (hprogress.turn hlength hcontinues hturn).run_eq_loop]
    have hleft : 6 - completed.length = (6 - (completed ++ [receipt]).length) + 1 := by
      rw [length_append, length_singleton]
      omega
    rw [hleft, Kernel.loop, if_pos hcontinues, hturn, ok_bind]

include h in
theorem run_of_ended (hended : completed.length = 6 ∨ Kernel.continues completed = false) :
    Kernel.run platform request [] = .ok completed := by
  rw [← h.run_eq, h.run_eq_loop]
  rcases hended with hlength | hcontinues
  · rw [hlength]
    rfl
  · cases 6 - completed.length with
    | zero => rfl
    | succ left => rw [Kernel.loop, if_neg (by simp [hcontinues])]

end Progress

variable {platform : Platform} {request : ResearchDecisionSessionRequest}
  {completed result : List ResearchSessionStageReceipt}

theorem runNext_extends {completed computed : List ResearchSessionStageReceipt}
    (h : Kernel.runNext platform request completed = .ok computed) :
    completed <+: computed := by
  unfold Kernel.runNext at h
  rw [bind_ok] at h
  obtain ⟨-, -, h⟩ := h
  split at h
  · exact pure_ok.mp h ▸ prefix_rfl
  · split at h
    · exact pure_ok.mp h ▸ prefix_rfl
    · simp only [bind_ok, pure_ok] at h
      obtain ⟨-, -, -, -, -, -, receipt, -, rfl⟩ := h
      exact prefix_append _ _

theorem loop_prefix {left : Nat} (h : Kernel.loop platform request left completed = .ok result) :
    completed <+: result := by
  induction left generalizing completed with
  | zero =>
    injection h with h
    exact h ▸ prefix_rfl
  | succ left ih =>
    rw [Kernel.loop] at h
    split at h
    · rw [bind_ok] at h
      obtain ⟨computed, hturn, h⟩ := h
      exact (runNext_extends hturn).trans (ih h)
    · injection h with h
      exact h ▸ prefix_rfl

/-- What the kernel returns on a request begins with every place it passed
through. -/
theorem Progress.prefix_run
    (h : Progress platform request completed) (hrun : Kernel.run platform request [] = .ok result) :
    completed <+: result := by
  rw [← h.run_eq, h.run_eq_loop] at hrun
  exact loop_prefix hrun

end MarketRegimeAlpha.Historical
