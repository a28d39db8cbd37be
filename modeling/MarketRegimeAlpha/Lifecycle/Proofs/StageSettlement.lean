/-
Which accepted results of a stage settle it.

The receipt and the transition ask again what the result has been asked, with two
exceptions: the receipt takes bare hashes and joined texts, and asks of those what the
result asked of references and pairs. A stage settles exactly when these agree
(`Settles`): hashes that several references share do not, nor does an id that goes on
from another with a character before the separator (`joined_sorted_iff`).
-/
import MarketRegimeAlpha.Lifecycle.StageSettlement
import MarketRegimeAlpha.Lib.Text

namespace MarketRegimeAlpha.Lifecycle

open Lib MarketData List

section Texts

variable {platform : Platform} {isSpace : Char → Bool} {value : String}

/-- What `str.strip` and SHA-256 are known to do: no visible character of ASCII is
stripped, and a digest is spelled in 64 hexadecimal digits. -/
structure Documented (platform : Platform) (isSpace : Char → Bool) : Prop where
  stripped : ∀ value, platform.isStripped value = true ↔
    (∀ c ∈ value.toList.head?, isSpace c = false) ∧ ∀ c ∈ value.toList.getLast?, isSpace c = false
  visible : ∀ c : Char, 32 < c.toNat → c.toNat < 127 → isSpace c = false
  digest : ∀ content, isSha256Text (platform.fileHash content) = true

/-- What `require_text` lets through. -/
def Text (platform : Platform) (value : String) : Prop :=
  value ≠ "" ∧ platform.isStripped value = true

theorem requireText_ok {label : String} :
    requireText platform label value = .ok () ↔ Text platform value := require_ok

def Visible (value : String) : Prop := ∀ c ∈ value.toList, 32 < c.toNat ∧ c.toNat < 127

theorem Visible.text (hp : Documented platform isSpace) (hne : value ≠ "")
    (h : Visible value) : Text platform value := by
  refine ⟨hne, (hp.stripped value).mpr ⟨fun c hc => ?_, fun c hc => ?_⟩⟩
  · obtain ⟨hlow, hhigh⟩ := h c (mem_of_mem_head? hc)
    exact hp.visible c hlow hhigh
  · obtain ⟨hlow, hhigh⟩ := h c (mem_of_mem_getLast? hc)
    exact hp.visible c hlow hhigh

theorem visible_of_le {low high c : Char} (hlow : low ≤ c) (hhigh : c ≤ high)
    (h : 32 < low.toNat ∧ high.toNat < 127) : 32 < c.toNat ∧ c.toNat < 127 :=
  ⟨h.1.trans_le (UInt32.le_iff_toNat_le.mp (Char.le_def.mp hlow)),
    (UInt32.le_iff_toNat_le.mp (Char.le_def.mp hhigh)).trans_lt h.2⟩

theorem visible_of_sha256 (h : isSha256Text value = true) : Visible value := by
  unfold isSha256Text at h
  simp only [Bool.and_eq_true, decide_eq_true_eq, all_eq_true] at h
  obtain ⟨⟨hhead, -⟩, hall⟩ := h
  intro c hc
  rw [← take_append_drop 7 value.toList, hhead, mem_append] at hc
  rcases hc with hc | hc
  · exact (by simp : ∀ c ∈ ['s', 'h', 'a', '2', '5', '6', ':'], 32 < c.toNat ∧ c.toNat < 127) c hc
  · have hdigit := hall c hc
    simp only [isDigit, Bool.or_eq_true, Bool.and_eq_true, decide_eq_true_eq] at hdigit
    rcases hdigit with ⟨hlow, hhigh⟩ | ⟨hlow, hhigh⟩
    · exact visible_of_le hlow hhigh (by decide)
    · exact visible_of_le hlow hhigh (by decide)

theorem text_of_sha256 (hp : Documented platform isSpace)
    (h : isSha256Text value = true) : Text platform value := by
  refine (visible_of_sha256 h).text hp ?_
  rintro rfl
  exact absurd h (by decide)

theorem receiptId_valid (hp : Documented platform isSpace) (h : isSha256Text value = true) :
    validateIdentity platform ("lifecycle-receipt-" ++ shortDigest value) = .ok () := by
  have hvisible : Visible ("lifecycle-receipt-" ++ shortDigest value) := by
    intro c hc
    rw [String.toList_append, mem_append] at hc
    rcases hc with hc | hc
    · exact (by simp : ∀ c ∈ "lifecycle-receipt-".toList, 32 < c.toNat ∧ c.toNat < 127) c hc
    · unfold shortDigest at hc
      rw [String.toList_ofList] at hc
      exact visible_of_sha256 h c (mem_of_mem_drop (mem_of_mem_take hc))
  have hne : "lifecycle-receipt-" ++ shortDigest value ≠ "" := by
    intro h
    have hlist := congrArg String.toList h
    exact absurd hlist (by simp)
  unfold validateIdentity
  rw [require_true hne, ok_bind, require_true (hvisible.text hp hne).2, ok_bind]
  apply require_true
  rw [all_eq_true]
  intro c hc
  obtain ⟨hlow, hhigh⟩ := hvisible c hc
  rw [Bool.and_eq_true]
  exact ⟨decide_eq_true (by omega), decide_eq_true (by omega)⟩

/-- An id and a version, as the receipt has them. -/
def joined (version : String × String) : String := version.1 ++ "@" ++ version.2

theorem toList_joined (version : String × String) :
    (joined version).toList = version.1.toList ++ '@' :: version.2.toList := by
  simp [joined, String.toList_append]

theorem joined_text (hp : Documented platform isSpace) {version : String × String}
    (hid : Text platform version.1) (hversion : Text platform version.2) :
    Text platform (joined version) := by
  have hne : ∀ {text : String}, text ≠ "" → text.toList ≠ [] := fun h hnil =>
    h (String.toList_inj.mp hnil)
  obtain ⟨c, hc⟩ := Option.ne_none_iff_exists'.mp (mt head?_eq_none_iff.mp (hne hid.1))
  obtain ⟨d, hd⟩ := Option.ne_none_iff_exists'.mp (mt getLast?_eq_none_iff.mp (hne hversion.1))
  constructor
  · intro h
    have hlist := toList_joined version
    rw [h] at hlist
    exact absurd hlist (by simp)
  · rw [hp.stripped, toList_joined, head?_append, getLast?_append,
      getLast?_cons, hc, hd]
    refine ⟨fun x hx => ?_, fun x hx => ?_⟩
    · cases hx
      exact ((hp.stripped _).mp hid.2).1 c hc
    · cases hx
      exact ((hp.stripped _).mp hversion.2).2 d hd

end Texts

-- ==== the model versions

section Versions

variable {versions : List (String × String)} {p q : String × String}

/-- Neither part has the separator. -/
def Plain (version : String × String) : Prop := '@' ∉ version.1.toList ∧ '@' ∉ version.2.toList

/-- Where the second id goes on from the first, it does with a character after `@`. -/
def GoesOn (p q : String × String) : Prop :=
  ∀ c rest, q.1.toList = p.1.toList ++ c :: rest → '@' < c

/-- No id of the versions goes on from another with a character before `@`. -/
def Ordered (versions : List (String × String)) : Prop := ∀ p ∈ versions, ∀ q ∈ versions, GoesOn p q

theorem joined_inj (hp : Plain p) (h : joined p = joined q) : p = q := by
  have hlist := congrArg String.toList h
  rw [toList_joined, toList_joined, append_cons_inj_of_notMem hp.1 hp.2] at hlist
  exact Prod.ext (String.toList_inj.mp hlist.1) (String.toList_inj.mp hlist.2.2)

/-- Of two versions in order, the joined texts are in order unless the second id goes
on from the first with a character before `@`. -/
theorem joined_le_iff (h : toLex p < toLex q) (hp : Plain p) (hq : Plain q) : joined p ≤ joined q ↔
      GoesOn p q := by
  have hne : joined p ≠ joined q := fun heq => h.ne (congrArg toLex (joined_inj hp heq))
  rw [hne.le_iff_lt, String.lt_iff_toList_lt, toList_joined, toList_joined]
  rcases Prod.Lex.toLex_lt_toLex.mp h with hlt | ⟨heq, hlt⟩
  · exact joined_lt_iff (String.lt_iff_toList_lt.mp hlt) hq.1
  · rw [heq]
    refine iff_of_true (append_left_lt ?_) fun c rest hself => ?_
    · exact cons_lt_cons_iff.mpr (.inr ⟨rfl, String.lt_iff_toList_lt.mp hlt⟩)
    · rw [heq] at hself
      exact absurd hself (by simp)

theorem joined_sorted_iff (hsorted : (versions.map toLex).Pairwise (· < ·))
    (hplain : ∀ p ∈ versions, Plain p) :
    (versions.map joined).Pairwise (· ≤ ·) ↔ Ordered versions := by
  rw [pairwise_map] at hsorted ⊢
  constructor
  · intro h
    have hon : versions.Pairwise GoesOn := (h.and hsorted).imp_of_mem
      fun hp hq hpq => (joined_le_iff hpq.2 (hplain _ hp) (hplain _ hq)).mp hpq.1
    -- of two versions the first id never goes on from the second
    have hback : versions.Pairwise (flip GoesOn) := hsorted.imp fun {p q} hpq => by
      intro c rest heq
      have hle : p.1 ≤ q.1 := Prod.Lex.monotone_fst _ _ hpq.le
      have hlt : q.1 < p.1 := by
        rw [String.lt_iff_toList_lt, heq]
        simpa using @append_left_lt _ _ q.1.toList _ _ (nil_lt_cons c rest)
      exact absurd hlt hle.not_gt
    have hself : ∀ p ∈ versions, GoesOn p p := fun p _ c rest heq => absurd heq (by simp)
    exact fun p hp q hq => hon.forall_of_forall_of_flip hself hback hp hq
  · intro h
    exact hsorted.imp_of_mem fun hp hq hlt =>
      (joined_le_iff hlt (hplain _ hp) (hplain _ hq)).mpr (h _ hp _ hq)

end Versions

-- ==== the checks

section Checks

variable {platform : Platform} {label label' : String} {values : List String}

theorem seq_ok {x y : Except Raised Unit} : (do x; y) = .ok () ↔ x = .ok () ∧ y = .ok () := by
  rw [bind_ok]
  exact ⟨fun ⟨_, hx, hy⟩ => ⟨hx, hy⟩, fun ⟨hx, hy⟩ => ⟨(), hx, hy⟩⟩

theorem isSorted_iff {α : Type} [LinearOrder α] {l : List α} :
    isSorted l = true ↔ l.Pairwise (· ≤ ·) := by
  unfold isSorted
  rw [decide_eq_true_eq]
  constructor
  · intro h
    rw [h]
    exact sortBy_pairwise id l
  · exact fun h => h.insertionSort_eq.symm

theorem requireSortedText_ok : requireSortedText platform label values = .ok () ↔
    (∀ value ∈ values, Text platform value) ∧ values.Nodup ∧ values.Pairwise (· ≤ ·) := by
  simp only [requireSortedText, requireUniqueText, seq_ok, forM_eq_forM, forM_ok,
    requireText_ok, require_ok, isSorted_iff, and_assoc]

theorem requireSortedText_of_unique (h : requireSortedUniqueText platform label values = .ok ()) :
    requireSortedText platform label' values = .ok () := by
  simp only [requireSortedUniqueText, seq_ok, forM_eq_forM, forM_ok, requireText_ok, require_ok,
    isSorted_iff] at h
  exact requireSortedText_ok.mpr ⟨h.1, h.2.2, h.2.1⟩

theorem requireSortedHashes_ok : requireSortedHashes platform label values = .ok () ↔
    requireSortedText platform label values = .ok ()
      ∧ ∀ value ∈ values, isSha256Text value = true := by
  simp only [requireSortedHashes, seq_ok, forM_eq_forM, forM_ok, requireSha256, require_ok]

theorem requireReason_congr {required : Prop} [Decidable required]
    {missing unwanted missing' unwanted' : String} {reason : Option String}
    (h : requireReason platform required missing unwanted reason = .ok ()) :
    requireReason platform required missing' unwanted' reason = .ok () := by
  unfold requireReason at h ⊢
  split at h
  next hrequired =>
    rw [if_pos hrequired]
    rw [seq_ok, require_ok] at h ⊢
    exact h
  next hrequired =>
    rw [if_neg hrequired]
    rw [require_ok] at h ⊢
    exact h

variable {references : List (LifecycleObjectReference platform)} {isSpace : Char → Bool}

theorem sortedHashes_ok (hp : Documented platform isSpace) :
    requireSortedHashes platform label (sortedHashes references) = .ok () ↔
      (references.map (·.contentHash)).Nodup := by
  have hperm : (sortedHashes references).Perm (references.map (·.contentHash)) := sortBy_perm id _
  have hsha : ∀ value ∈ sortedHashes references, isSha256Text value = true := by
    intro value hvalue
    obtain ⟨reference, -, rfl⟩ := mem_map.mp (hperm.mem_iff.mp hvalue)
    have hcheck := reference.property
    exact require_ok.mp (seq_ok.mp hcheck).1
  rw [requireSortedHashes_ok, requireSortedText_ok, hperm.nodup_iff]
  constructor
  · exact fun h => h.1.2.1
  · exact fun h => ⟨⟨fun value hvalue => text_of_sha256 hp (hsha value hvalue), h,
      sortBy_pairwise id _⟩, hsha⟩

end Checks

-- ==== the settlement

section Settlement

variable {platform : Platform} {isSpace : Char → Bool} {result : ExecutionResultFields platform}

structure ExecutionResultFields.Sound (result : ExecutionResultFields platform) : Prop
    where
  status : result.stageStatus ∈ receiptStageStatuses
  inputs : validateObjectReferences "input_references" result.inputReferences = .ok ()
  outputs : validateObjectReferences "output_references" result.outputReferences = .ok ()
  versions_sorted : (result.modelVersions.map toLex).Pairwise (· < ·)
  versions_text : ∀ p ∈ result.modelVersions, Text platform p.1 ∧ Text platform p.2
  versions_plain : ∀ p ∈ result.modelVersions, Plain p
  configurations : requireSortedHashes platform "configuration_hashes"
    result.configurationHashes = .ok ()
  reasons : requireSortedText platform "reason_codes" result.reasonCodes = .ok ()
  pair : result.validateStatusPair = .ok ()
  reason : requireReason platform (result.stageStatus ∈ reasonedStageStatuses
      ∨ result.runStatus ∈ waitingRunStatuses)
    "reasoned stage or run result requires blocker_reason"
    "unblocked stage and run cannot carry blocker_reason" result.blockerReason = .ok ()

theorem sound_of_check (h : result.check = .ok ()) : result.Sound := by
  unfold ExecutionResultFields.check at h
  simp only [seq_ok, require_ok] at h
  obtain ⟨hstatus, hinputs, houtputs, hversions, hconfigurations, hdigests, hreasons,
    hpair, hreason, -⟩ := h
  simp only [ExecutionResultFields.validateModelVersions,
    ExecutionResultFields.checkModelVersion, seq_ok, forM_eq_forM, forM_ok,
    requireText_ok, require_ok, isSorted_iff, not_or] at hversions
  obtain ⟨hsorted, hnodup, hentries⟩ := hversions
  have hall := forM_ok.mp hdigests
  constructor
  case versions_sorted =>
    have hdistinct := hnodup.map toLex.injective
    exact (hsorted.and hdistinct).imp fun h => lt_of_le_of_ne h.1 h.2
  case versions_text => exact fun p hp => ⟨(hentries p hp).1, (hentries p hp).2.1⟩
  case versions_plain => exact fun p hp => (hentries p hp).2.2
  case configurations =>
    exact requireSortedHashes_ok.mpr ⟨requireSortedText_of_unique hconfigurations,
      fun value hvalue => require_ok.mp (hall value hvalue)⟩
  case reasons => exact requireSortedText_of_unique hreasons
  case reason => exact requireReason_congr hreason
  all_goals assumption

theorem receiptModelVersions_ok (hp : Documented platform isSpace) (h : result.Sound) :
    requireSortedText platform "model_versions" result.receiptModelVersions = .ok () ↔
      Ordered result.modelVersions := by
  have hmap : result.receiptModelVersions = result.modelVersions.map joined := rfl
  rw [requireSortedText_ok, hmap, joined_sorted_iff h.versions_sorted h.versions_plain]
  constructor
  · exact fun h => h.2.2
  · intro hordered
    refine ⟨fun value hvalue => ?_, ?_, hordered⟩
    · obtain ⟨p, hmem, rfl⟩ := mem_map.mp hvalue
      exact joined_text hp (h.versions_text p hmem).1 (h.versions_text p hmem).2
    · have hnodup : result.modelVersions.Nodup := by
        have hlt := pairwise_map.mp h.versions_sorted
        exact hlt.imp fun hlt heq => hlt.ne (congrArg toLex heq)
      exact hnodup.map_on fun p hpmem q _ heq => joined_inj (h.versions_plain p hpmem) heq

def receiptOf (hp : Documented platform isSpace) (values : ReceiptValues platform)
    (attemptNumber : Nat) (createdAt : UtcSecond) : ReceiptFields platform :=
  ⟨values, ⟨_, receiptId_valid hp (hp.digest (canonicalJson
    values.semanticPayload).toUTF8)⟩, attemptNumber, createdAt,
    platform.canonicalHash values.semanticPayload⟩

theorem receiptId_ok (hp : Documented platform isSpace) (values : ReceiptValues platform)
    (n : Nat) (t : UtcSecond) : construct (validateIdentity platform) ("lifecycle-receipt-"
        ++ shortDigest (platform.canonicalHash values.semanticPayload))
      = .ok (receiptOf hp values n t).receiptId :=
  construct_eq rfl

theorem create_eq (hp : Documented platform isSpace) (values : ReceiptValues platform)
    (n : Nat) (t : UtcSecond) : StageReceipt.create values n t
      = construct ReceiptFields.check (receiptOf hp values n t) := by
  unfold StageReceipt.create
  simp only [receiptId_ok hp values n t, ok_bind]
  rfl

variable {result : StageExecutionResult platform} {context : LifecycleStageContext platform}
  {observedAt completedAt : UtcSecond}

/-- What the receipt asks of a result that the result has not been asked. -/
structure Settles (result : StageExecutionResult platform) : Prop where
  inputs : (result.val.inputReferences.map (·.contentHash)).Nodup
  outputs : (result.val.outputReferences.map (·.contentHash)).Nodup
  versions : Ordered result.val.modelVersions

theorem receipt_ok_iff (hp : Documented platform isSpace) :
    (receiptOf hp (receiptValues result context) context.attemptNumber
      completedAt).check = .ok () ↔ Settles result := by
  have h := sound_of_check result.property
  unfold ReceiptFields.check
  simp only [seq_ok, requirePositive, require_ok]
  constructor
  · rintro ⟨-, hinputs, houtputs, -, hversions, -⟩
    exact ⟨(sortedHashes_ok hp).mp hinputs, (sortedHashes_ok hp).mp houtputs,
      (receiptModelVersions_ok hp h).mp hversions⟩
  · rintro ⟨hinputs, houtputs, hversions⟩
    refine ⟨context.attemptNumber_pos, (sortedHashes_ok hp).mpr hinputs,
      (sortedHashes_ok hp).mpr houtputs, h.configurations,
      (receiptModelVersions_ok hp h).mpr hversions, h.reasons, h.status,
      require_true (hp.digest _) _, ?_⟩
    exact bind_ok.mpr ⟨_, receiptId_ok hp _ _ _, require_true ⟨rfl, rfl⟩ _⟩

/-- A transition built on such a receipt is one. -/
theorem transition_ok {receipt : StageReceipt platform}
    (hvalues : receipt.val.toReceiptValues = receiptValues result context)
    (hcreated : receipt.val.createdAt = completedAt) :
    (transitionFields result context receipt completedAt).check = .ok () := by
  have h := sound_of_check result.property
  have hpair := h.pair
  unfold ExecutionResultFields.validateStatusPair at hpair
  rw [seq_ok, seq_ok, require_ok, require_ok] at hpair
  obtain ⟨hrun, hstatus, -⟩ := hpair
  have hstage : receipt.val.stageResult = result.val.stageStatus := congrArg (·.stageResult) hvalues
  unfold TransitionFields.check
  simp only [seq_ok, requirePositive, transitionFields, hstage]
  refine ⟨require_true context.runVersion_pos _, require_true context.stageVersion_pos _,
    require_true context.claimToken_pos _, require_true (congrArg (·.runId) hvalues) _,
    require_true (congrArg (·.stageName) hvalues) _, require_true h.status _, h.inputs,
    h.outputs, require_true (congrArg (·.inputHashes) hvalues) _,
    require_true (congrArg (·.outputHashes) hvalues) _, h.reason, require_true ?_ _,
    require_true ?_ _, require_true ?_ _, require_true hcreated _⟩
  · intro hblocked
    rw [hblocked] at hstatus
    exact require_ok.mp hstatus
  · intro hwaiting
    rw [hwaiting] at hstatus
    exact require_ok.mp hstatus
  · rintro ⟨hstage, hblocking⟩
    -- the pair is checked to leave the run neither blocked nor failed
    have hblocked : result.val.runStatus = .blockedByModelValidation := by
      simp only [mem_cons, not_mem_nil, or_false, not_or] at hblocking hrun
      exact hblocking.resolve_right hrun.2.2
    rw [hblocked] at hstatus
    simp only [mem_cons, not_mem_nil, or_false] at hstage
    rcases hstage with hstage | hstage
    · rw [hstage] at hstatus
      exact absurd hstatus (by decide)
    · rw [hstage] at hstatus
      exact absurd hstatus (by decide)

/-- **Accepted stage results settle**, exactly when no two input references and no two
output references carry the same hash and no model id goes on from another with a
character before `@`. -/
theorem accepted_results_settle (hp : Documented platform isSpace)
    (haccepted : validateResult result context observedAt = .ok ()) :
    (∃ transition, settledTransition result context observedAt completedAt
      = .ok transition) ↔ Settles result := by
  unfold settledTransition
  rw [haccepted, ok_bind]
  unfold buildTransition
  rw [create_eq hp, ← @receipt_ok_iff _ _ result context completedAt hp]
  constructor
  · rintro ⟨transition, h⟩
    obtain ⟨receipt, hreceipt, -⟩ := bind_ok.mp h
    rw [← val_of_construct hreceipt]
    exact receipt.property
  · intro h
    have hreceipt := construct_val (⟨receiptOf hp (receiptValues result context)
      context.attemptNumber completedAt, h⟩ : StageReceipt platform)
    rw [hreceipt, ok_bind]
    exact ⟨_, construct_val ⟨_, transition_ok rfl rfl⟩⟩

end Settlement

-- ==== a sample

/-- Strips blanks, and has one digest for everything. -/
def stagePlatform : Platform where
  isDigit := Char.isDigit
  isStripped value := value.toList.head?.all (· ≠ ' ') && value.toList.getLast?.all (· ≠ ' ')
  containerText _ := ""
  shanghaiDate t := t.date
  sha256 _ := String.ofList (List.replicate 64 '0')
  loads _ := none
  writeTable _ := .empty
  readBarJson _ := none

theorem stage_documented : Documented stagePlatform (· = ' ') where
  stripped value := by simp [stagePlatform, Option.all_eq_true]
  visible c hlow _ := decide_eq_false fun h => by
    subst h
    exact absurd hlow (by decide)
  digest content := by
    show isSha256Text ("sha256:" ++ String.ofList (List.replicate 64 '0')) = true
    decide +kernel

def sampleSecond : UtcSecond :=
  ⟨.sample, ⟨0, 0, 0, 0, by decide, Shared.Time.zero_minute, Shared.Time.zero_minute,
    Shared.Time.zero_microsecond⟩, rfl⟩

def sampleReference (readerKind : LifecycleReaderKind) : ObjectReferenceFields stagePlatform where
  objectType := ⟨"POSITION_SNAPSHOT", by decide⟩
  objectId := ⟨"position-1", by decide +kernel⟩
  contentHash := stagePlatform.fileHash .empty
  readerKind := readerKind
  locator := none
  availableAt := sampleSecond

def sampleReferences : List (LifecycleObjectReference stagePlatform) :=
  [⟨sampleReference ⟨"POSITION_BOOK_REPOSITORY", by decide⟩, by decide +kernel⟩,
    ⟨sampleReference ⟨"POSITION_SNAPSHOT_REPOSITORY", by decide⟩, by decide +kernel⟩]

def sampleResult : StageExecutionResult stagePlatform :=
  ⟨{ stageStatus := .completed
     runStatus := .running
     inputReferences := sampleReferences
     outputReferences := []
     modelVersions := [("a", "x"), ("a-b", "y")]
     configurationHashes := []
     reasonCodes := []
     blockerReason := none }, by decide +kernel⟩

def sampleContext : LifecycleStageContext stagePlatform where
  runId := ⟨"run-1", by decide +kernel⟩
  runVersion := 2
  claimToken := 1
  modelReferences := [("a", "x"), ("a-b", "y")]
  configurationHashes := []
  stageName := .thesisHealth
  stageVersion := 2
  attemptId := ⟨"attempt-1", by decide +kernel⟩
  attemptNumber := 1
  priorOutputs := [sampleReferences]
  initialReferences := []
  runVersion_pos := Nat.zero_lt_two
  claimToken_pos := Nat.zero_lt_one
  stageVersion_pos := Nat.zero_lt_two
  attemptNumber_pos := Nat.zero_lt_one

/-- A position read in two ways is accepted, and then refused by the receipt. -/
theorem shared_hash_fails_stage : validateResult sampleResult sampleContext sampleSecond = .ok ()
      ∧ (settledTransition sampleResult sampleContext sampleSecond sampleSecond).map
        (fun _ => ()) = .error (.valueError "input_hashes values must be unique") := by
  decide +kernel

theorem accepted_results_settle_sample :
    (∃ transition, settledTransition sampleResult sampleContext sampleSecond
      sampleSecond = .ok transition) ↔ Settles sampleResult :=
  accepted_results_settle stage_documented (by decide +kernel)

end MarketRegimeAlpha.Lifecycle
