/-
The decision session of one trading date, and the kernel that computes
its stages.

# What stands for what

A timestamp is a number of microseconds; `normalize_canonical_datetime`
floors it to the second. A digest is its sixty-four hexadecimal digits,
checked by its type, and SHA-256 over the canonical JSON is a function of
the values that are hashed, with which everything here is parametric. The
stage owner is a function of the request, the stage and the inputs, that
returns a valid computation or raises. A dataclass that is restored from
its stored payload has a `construct` that makes the checks of its
`__post_init__`.
-/
import MarketRegimeAlpha.Execution.Manual
import MarketRegimeAlpha.Shadow.Portfolio

namespace MarketRegimeAlpha.Historical

open Lib

export Shadow (Day Instant ValidationArtifactReference sortedReferences)

-- ==== small values

def normalizeCanonicalDatetime (t : Instant) : Instant := t / 1000000 * 1000000

structure Digest where
  digits : String
  form : isSha256 digits = true
  deriving DecidableEq

def Digest.short (digest : Digest) : String := String.ofList (digest.digits.toList.take 24)

def requireText (label value : String) : Except Raised Unit := Execution.text label value

inductive DataAuthorityMode where
  | recordedLiveResearch
  | freeResearchArchive
  | qualifiedFormalPit
  deriving DecidableEq

inductive ResearchExecutionMode where
  | liveResearch
  | shadow
  | historicalResearch
  deriving DecidableEq

inductive EvidenceQualification where
  | exploratoryPitIncomplete
  | formalPitQualified
  deriving DecidableEq

-- ==== the request

/-- `semantic_values` of a request. -/
structure SessionValues where
  tradingDate : Day
  decisionTime : Instant
  materializedAt : Instant
  dataAuthorityMode : DataAuthorityMode
  executionMode : ResearchExecutionMode
  evidenceQualification : EvidenceQualification
  tradingCalendarId : String
  tradingCalendarHash : Digest
  runtimeScopePolicyId : String
  runtimeScopePolicyHash : Digest
  decisionPolicyId : String
  decisionPolicyHash : Digest
  targetProtocolReference : ValidationArtifactReference
  experimentDefinitionReference : ValidationArtifactReference
  codeRevision : String
  configurationReferences : List ValidationArtifactReference
  deriving DecidableEq

structure ResearchDecisionSessionRequest extends SessionValues where
  sessionId : String
  sessionHash : Digest
  deriving DecidableEq

namespace ResearchDecisionSessionRequest

variable (hash : SessionValues → Digest)

/-- `ResearchDecisionSessionRequest(...)`, with the checks it makes. -/
def construct (request : ResearchDecisionSessionRequest) :
    Except Raised ResearchDecisionSessionRequest := do
  requireText "code_revision" request.codeRevision
  require (request.targetProtocolReference.artifactKind = "OUTCOME_TARGET_PROTOCOL")
    (.valueError "Research session requires canonical Target Protocol")
  require (request.experimentDefinitionReference.artifactKind = "RESEARCH_EXPERIMENT_DEFINITION")
    (.valueError "Research session requires frozen Experiment Definition")
  require (request.configurationReferences = sortedReferences request.configurationReferences)
    (.valueError "Research session configurations must be unique and sorted")
  require (normalizeCanonicalDatetime request.decisionTime
      ≤ normalizeCanonicalDatetime request.materializedAt)
    (.valueError "materialized_at cannot precede decision_time")
  require (¬ (request.dataAuthorityMode = .freeResearchArchive
      ∧ request.evidenceQualification = .formalPitQualified))
    (.valueError "free Research data cannot claim Formal PIT")
  require (¬ (request.dataAuthorityMode = .qualifiedFormalPit
      ∧ request.evidenceQualification ≠ .formalPitQualified))
    (.valueError "qualified Formal PIT authority requires Formal qualification")
  require (hash request.toSessionValues = request.sessionHash)
    (.valueError "Research Decision Session hash mismatch")
  require (request.sessionId = "research-decision-session-" ++ request.sessionHash.short)
    (.valueError "Research Decision Session identity mismatch")
  return request

def create (values : SessionValues) :
    Except Raised ResearchDecisionSessionRequest :=
  let values := { values with
    decisionTime := normalizeCanonicalDatetime values.decisionTime
    materializedAt := normalizeCanonicalDatetime values.materializedAt
    configurationReferences := sortedReferences values.configurationReferences }
  construct hash { values with
    sessionId := "research-decision-session-" ++ (hash values).short
    sessionHash := hash values }

def fromCanonicalDict (payload : ResearchDecisionSessionRequest) :
    Except Raised ResearchDecisionSessionRequest :=
  construct hash { payload with
    configurationReferences := sortedReferences payload.configurationReferences }

end ResearchDecisionSessionRequest

-- ==== the stages

inductive ResearchSessionStage where
  | scope
  | decision
  | strategy
  | portfolio
  | outcome
  | performance
  deriving DecidableEq

/-- `tuple(ResearchSessionStage)`. -/
def stages : List ResearchSessionStage :=
  [.scope, .decision, .strategy, .portfolio, .outcome, .performance]

def ResearchSessionStage.ordinal (stage : ResearchSessionStage) : Nat := stages.idxOf stage + 1

/-- `tuple(ResearchSessionStage)[n]`. -/
def stageAt (n : Nat) : Except Raised ResearchSessionStage :=
  match stages[n]? with
  | some stage => .ok stage
  | none => .error (.lookupError "tuple index out of range")

inductive SessionStageStatus where
  | complete
  | blocked
  | notEstimable
  deriving DecidableEq

structure SessionStageComputation where
  status : SessionStageStatus
  outputReferences : List ValidationArtifactReference
  inputReferences : List ValidationArtifactReference
  completedAt : Instant
  reasonCodes : List String
  inputs_sorted : inputReferences = sortedReferences inputReferences
  outputs_sorted : outputReferences = sortedReferences outputReferences
  complete_output : status = .complete → outputReferences ≠ []
  reasons_sorted : reasonCodes = sortedDistinct reasonCodes
  reasons_nonempty : reasonCodes ≠ []

/-- `compute_stage` of the owner of the facts. -/
abbrev StageOwner := ResearchDecisionSessionRequest → ResearchSessionStage →
  List ValidationArtifactReference → Except Raised SessionStageComputation

structure ReceiptIdentity where
  sessionId : String
  sessionHash : Digest
  stage : ResearchSessionStage
  status : SessionStageStatus
  predecessorReceiptIds : List String
  predecessorReceiptHashes : List Digest
  inputReferences : List ValidationArtifactReference
  outputReferences : List ValidationArtifactReference
  completedAt : Instant
  reasonCodes : List String
  deriving DecidableEq

structure ResearchSessionStageReceipt extends ReceiptIdentity where
  receiptId : String
  receiptHash : Digest
  deriving DecidableEq

namespace ResearchSessionStageReceipt

def identityPayload (receipt : ResearchSessionStageReceipt) :
    ReceiptIdentity :=
  { receipt.toReceiptIdentity with
    completedAt := normalizeCanonicalDatetime receipt.completedAt }

def toCanonicalDict (receipt : ResearchSessionStageReceipt) :
    ResearchSessionStageReceipt :=
  { receipt with
    completedAt := normalizeCanonicalDatetime receipt.completedAt }

variable (hash : ReceiptIdentity → Digest)

/-- `ResearchSessionStageReceipt(...)`, with the checks it makes. -/
def construct (receipt : ResearchSessionStageReceipt) :
    Except Raised ResearchSessionStageReceipt := do
  require (receipt.predecessorReceiptIds.length = receipt.predecessorReceiptHashes.length)
    (.valueError "stage predecessor identities and hashes must be paired")
  require (receipt.predecessorReceiptIds.length = receipt.stage.ordinal - 1)
    (.valueError "stage receipt requires the complete predecessor chain")
  require (receipt.inputReferences = sortedReferences receipt.inputReferences)
    (.valueError "stage receipt input references must be unique and sorted")
  require (receipt.outputReferences = sortedReferences receipt.outputReferences)
    (.valueError "stage receipt output references must be unique and sorted")
  require (¬ (receipt.status = .complete ∧ receipt.outputReferences = []))
    (.valueError "complete stage receipt requires an owner output")
  require (receipt.reasonCodes ≠ [] ∧ receipt.reasonCodes = sortedDistinct receipt.reasonCodes)
    (.valueError "stage receipt reasons must be non-empty, unique, sorted")
  require (hash receipt.identityPayload = receipt.receiptHash)
    (.valueError "Research Session stage receipt hash mismatch")
  require (receipt.receiptId = "research-session-stage-" ++ receipt.receiptHash.short)
    (.valueError "Research Session stage receipt identity mismatch")
  return receipt

def create (request : ResearchDecisionSessionRequest) (stage : ResearchSessionStage)
    (predecessors : List ResearchSessionStageReceipt) (computation : SessionStageComputation) :
    Except Raised ResearchSessionStageReceipt :=
  let values : ReceiptIdentity := {
    sessionId := request.sessionId
    sessionHash := request.sessionHash
    stage := stage
    status := computation.status
    predecessorReceiptIds := predecessors.map (·.receiptId)
    predecessorReceiptHashes := predecessors.map (·.receiptHash)
    inputReferences := computation.inputReferences
    outputReferences := computation.outputReferences
    completedAt := normalizeCanonicalDatetime computation.completedAt
    reasonCodes := computation.reasonCodes }
  construct hash { values with
    receiptId := "research-session-stage-" ++ (hash values).short
    receiptHash := hash values }

def fromCanonicalDict (payload : ResearchSessionStageReceipt) :
    Except Raised ResearchSessionStageReceipt :=
  construct hash { payload with
    inputReferences := sortedReferences payload.inputReferences
    outputReferences := sortedReferences payload.outputReferences }

end ResearchSessionStageReceipt

-- ==== the kernel

/-- What the kernel and the journal are parametric in: SHA-256 over
canonical JSON, the time zones, and the owner of the facts. -/
structure Platform where
  sessionHash : SessionValues → Digest
  receiptHash : ReceiptIdentity → Digest
  localInstant : String → Day → Nat → Instant
  owner : StageOwner

namespace Kernel

variable (platform : Platform)

/-- The receipt at `ordinal` belongs to the session and to those before
it. -/
def validateReceipt (request : ResearchDecisionSessionRequest)
    (pre : List ResearchSessionStageReceipt) (ordinal : Nat)
    (receipt : ResearchSessionStageReceipt) : Except Raised Unit := do
  require (receipt.sessionId = request.sessionId ∧ receipt.sessionHash = request.sessionHash)
    (.valueError "completed receipt belongs to a different decision session")
  let predecessors := pre.take ordinal
  require (receipt.predecessorReceiptIds = predecessors.map (·.receiptId)
      ∧ receipt.predecessorReceiptHashes = predecessors.map (·.receiptHash))
    (.valueError "completed receipt predecessor chain is invalid")

def validatePrefix (request : ResearchDecisionSessionRequest)
    (pre : List ResearchSessionStageReceipt) : Except Raised Unit := do
  require (pre.map (·.stage) = stages.take pre.length)
    (.valueError "completed receipts must form a contiguous stage prefix")
  pre.zipIdx.forM fun (receipt, ordinal) => validateReceipt request pre ordinal receipt

/-- Nothing is completed yet, or the last stage was. -/
def continues (completed : List ResearchSessionStageReceipt) : Bool :=
  match completed.getLast? with
  | none => true
  | some last => last.status = .complete

def runNext (request : ResearchDecisionSessionRequest)
    (completed : List ResearchSessionStageReceipt) :
    Except Raised (List ResearchSessionStageReceipt) := do
  validatePrefix request completed
  if completed.length = stages.length then return completed
  if ¬ continues completed then return completed
  let stage ← stageAt completed.length
  let expectedInputs := sortedReferences (completed.flatMap (·.outputReferences))
  let computation ← platform.owner request stage expectedInputs
  require (∀ reference ∈ expectedInputs, reference ∈ computation.inputReferences)
    (.valueError "stage computation omits predecessor owner lineage")
  let receipt ← ResearchSessionStageReceipt.create platform.receiptHash
    request stage completed computation
  return completed ++ [receipt]

/-- The loop of `run`, with the number of stages that are left. -/
def loop (request : ResearchDecisionSessionRequest) : Nat → List ResearchSessionStageReceipt →
      Except Raised (List ResearchSessionStageReceipt)
  | 0, completed => .ok completed
  | left + 1, completed =>
    if continues completed then do
      let completed ← runNext platform request completed
      loop request left completed
    else .ok completed

def run (request : ResearchDecisionSessionRequest) (completed : List ResearchSessionStageReceipt) :
    Except Raised (List ResearchSessionStageReceipt) := do
  validatePrefix request completed
  loop platform request (stages.length - completed.length) completed

end Kernel

end MarketRegimeAlpha.Historical
