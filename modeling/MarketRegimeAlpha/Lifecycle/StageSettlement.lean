/-
A stage of the canonical lifecycle and the record of what its handler returned.

The result of a handler, the receipt and the transition each check their own fields
(`Sealed`), and the runner builds the last two from the first (`buildTransition`). Of
the run, the stage and the attempt there is what the runner reads here
(`LifecycleStageContext`).
-/
import MarketRegimeAlpha.MarketData.Values

namespace MarketRegimeAlpha.Lifecycle

open Lib MarketData

-- ==== the statuses

inductive LifecycleRunStatus
  | created
  | running
  | retrying
  | waitingForEntryConfirmation
  | blockedByModelValidation
  | waitingForManualConfirmation
  | waitingForFill
  | positionOpen
  | waitingForT1
  | readyForHoldingAssessment
  | readyForExitReview
  | completed
  | failed
  deriving DecidableEq

def waitingRunStatuses : List LifecycleRunStatus :=
  [.waitingForEntryConfirmation, .blockedByModelValidation,
    .waitingForManualConfirmation, .waitingForFill, .waitingForT1]

inductive LifecycleStageStatus
  | pending
  | running
  | completed
  | waiting
  | blocked
  | failed
  | skippedNotApplicable
  deriving DecidableEq

/-- Its value. -/
def LifecycleStageStatus.text : LifecycleStageStatus → String
  | .pending => "PENDING"
  | .running => "RUNNING"
  | .completed => "COMPLETED"
  | .waiting => "WAITING"
  | .blocked => "BLOCKED"
  | .failed => "FAILED"
  | .skippedNotApplicable => "SKIPPED_NOT_APPLICABLE"

def receiptStageStatuses : List LifecycleStageStatus :=
  [.completed, .waiting, .blocked, .skippedNotApplicable]

def reasonedStageStatuses : List LifecycleStageStatus := [.waiting, .blocked, .skippedNotApplicable]

inductive LifecycleStageName
  | verifyCompositeEvidence
  | platformResearch
  | signal
  | pathForecast
  | entryAssessment
  | opportunity
  | thesis
  | portfolioRisk
  | riskReduction
  | manualConfirmation
  | manualTrade
  | fillPosition
  | thesisHealth
  | holdingAssessment
  | exitAssessment
  | outcomeReview
  deriving DecidableEq

/-- Its value. -/
def LifecycleStageName.text : LifecycleStageName → String
  | .verifyCompositeEvidence => "VERIFY_COMPOSITE_EVIDENCE"
  | .platformResearch => "PLATFORM_RESEARCH"
  | .signal => "SIGNAL"
  | .pathForecast => "PATH_FORECAST"
  | .entryAssessment => "ENTRY_ASSESSMENT"
  | .opportunity => "OPPORTUNITY"
  | .thesis => "THESIS"
  | .portfolioRisk => "PORTFOLIO_RISK"
  | .riskReduction => "RISK_REDUCTION"
  | .manualConfirmation => "MANUAL_CONFIRMATION"
  | .manualTrade => "MANUAL_TRADE"
  | .fillPosition => "FILL_POSITION"
  | .thesisHealth => "THESIS_HEALTH"
  | .holdingAssessment => "HOLDING_ASSESSMENT"
  | .exitAssessment => "EXIT_ASSESSMENT"
  | .outcomeReview => "OUTCOME_REVIEW"

-- ==== the references

/-- The values of `LifecycleObjectType`. -/
def lifecycleObjectTypes : List String :=
  ["MARKET_DATA_DATASET", "FEATURE_BUNDLE", "OPERATIONAL_UNIVERSE",
    "STATIC_UNIVERSE_FEATURE_BUNDLE", "CANDIDATE_INTRADAY_FEATURE_OVERLAY",
    "CANDIDATE_SET", "CANDIDATE_FEATURE_VIEW", "COMPOSITE_OPERATIONAL_MANIFEST",
    "SOURCE_MANIFEST", "DAILY_DECISION_ARTIFACT", "SUPPLEMENTAL_RESEARCH_EVIDENCE",
    "CONTROLLED_PLATFORM_RESEARCH_ARTIFACT", "PLATFORM_RESEARCH_ARTIFACT",
    "SIGNAL_ARTIFACT", "PATH_FORECAST_ARTIFACT", "ENTRY_ASSESSMENT", "OPPORTUNITY",
    "THESIS", "PORTFOLIO_DECISION", "RISK_DECISION", "RISK_REDUCING_DECISION",
    "OPERATIONAL_EXIT_DIRECTIVE", "REDUCING_EXECUTION_OBSERVATION",
    "SYMBOL_TRADING_SESSION_STATUS_SET", "RISK_REDUCTION_CONFIRMATION_POLICY",
    "RISK_REDUCTION_CONFIRMATION", "MANUAL_TRADE", "FILL", "POSITION_SNAPSHOT",
    "POSITION_BOOK", "TRADING_CALENDAR_ARTIFACT", "THESIS_HEALTH_OBSERVATION",
    "HOLDING_ASSESSMENT", "EXIT_ASSESSMENT", "OUTCOME_REVIEW", "FEATURE_ARTIFACT",
    "MODEL_COMPARISON_REPORT"]

/-- `LifecycleObjectType`: a member is read only through its value. -/
abbrev LifecycleObjectType := { value : String // value ∈ lifecycleObjectTypes }

/-- The values of `LifecycleReaderKind`. -/
def lifecycleReaderKinds : List String :=
  ["MARKET_DATA_DATASET_READER", "FEATURE_BUNDLE_READER",
    "OPERATIONAL_UNIVERSE_READER", "STATIC_UNIVERSE_FEATURE_BUNDLE_READER",
    "CANDIDATE_INTRADAY_FEATURE_OVERLAY_READER", "CANDIDATE_SET_READER",
    "CANDIDATE_FEATURE_VIEW_READER", "COMPOSITE_OPERATIONAL_ARTIFACT_READER",
    "SOURCE_MANIFEST_READER", "DAILY_DECISION_ARTIFACT_READER",
    "SUPPLEMENTAL_RESEARCH_EVIDENCE_READER",
    "CONTROLLED_PLATFORM_RESEARCH_ARTIFACT_READER",
    "PLATFORM_RESEARCH_ARTIFACT_READER", "SIGNAL_ARTIFACT_READER",
    "PATH_FORECAST_ARTIFACT_READER", "DECISION_LIFECYCLE_REPOSITORY",
    "PORTFOLIO_RISK_REPOSITORY", "RISK_REDUCTION_REPOSITORY",
    "OPERATIONAL_EXIT_DIRECTIVE_REPOSITORY", "REDUCING_EXECUTION_OBSERVATION_READER",
    "SYMBOL_TRADING_SESSION_STATUS_READER",
    "RISK_REDUCTION_CONFIRMATION_POLICY_READER", "MANUAL_TRADE_REPOSITORY",
    "MANUAL_FILL_LEDGER", "POSITION_SNAPSHOT_REPOSITORY", "POSITION_BOOK_REPOSITORY",
    "TRADING_CALENDAR_ARTIFACT_READER", "THESIS_HEALTH_REPOSITORY",
    "HOLDING_ASSESSMENT_REPOSITORY", "EXIT_ASSESSMENT_REPOSITORY",
    "OUTCOME_REVIEW_REPOSITORY", "FEATURE_ARTIFACT_READER",
    "MODEL_COMPARISON_REPORT_READER"]

/-- `LifecycleReaderKind`: a member is read only through its value. -/
abbrev LifecycleReaderKind := { value : String // value ∈ lifecycleReaderKinds }

section References

variable {platform : Platform}

/-- The fields of `LifecycleObjectReference`. -/
structure ObjectReferenceFields (platform : Platform) where
  objectType : LifecycleObjectType
  objectId : ArtifactId platform
  contentHash : String
  readerKind : LifecycleReaderKind
  locator : Option String
  availableAt : UtcSecond
  deriving DecidableEq

/-- `LifecycleObjectReference.__post_init__`. -/
def ObjectReferenceFields.check (reference : ObjectReferenceFields platform) :
    Except Raised Unit := do
  requireSha256 "content_hash" reference.contentHash
  reference.locator.forM (requireText platform "locator")
  require (∀ locator ∈ reference.locator,
      ¬ "://".toList <:+: locator.toList ∧ '\x00' ∉ locator.toList)
    (.valueError "locator must be a controlled local locator")

abbrev LifecycleObjectReference (platform : Platform) :=
  Sealed (@ObjectReferenceFields.check platform)

namespace LifecycleObjectReference

variable (reference : LifecycleObjectReference platform)

def sortKey : String ×ₗ String ×ₗ String :=
  toLex (reference.val.objectType.val,
    toLex (reference.val.objectId.val, reference.val.readerKind.val))

def contentHash : String :=
  reference.val.contentHash

end LifecycleObjectReference

/-- The two dictionaries of `validate_lifecycle_object_references`: each holds the first
reference with its key, among those before. -/
def checkIdentities (label : String) : List (LifecycleObjectReference platform) →
    List (LifecycleObjectReference platform) → Except Raised Unit
  | _, [] => .ok ()
  | seen, item :: rest => do
      require (∀ prior ∈ seen.find? (·.val.objectId = item.val.objectId),
          prior.contentHash = item.contentHash)
        (.valueError (label ++ " maps one object ID to conflicting hashes"))
      require (∀ prior ∈ seen.find? (·.contentHash = item.contentHash),
          prior.val.objectId = item.val.objectId)
        (.valueError (label ++ " maps one hash to different object IDs"))
      checkIdentities label (seen ++ [item]) rest

def validateObjectReferences (label : String)
    (values : List (LifecycleObjectReference platform)) : Except Raised Unit := do
  let keys := values.map LifecycleObjectReference.sortKey
  require (isSorted keys = true) (.valueError (label ++ " must be sorted"))
  require keys.Nodup (.valueError (label ++ " must be unique"))
  checkIdentities label [] values

end References

-- ==== the result

structure ExecutionResultFields (platform : Platform) where
  stageStatus : LifecycleStageStatus
  runStatus : LifecycleRunStatus
  (inputReferences outputReferences : List (LifecycleObjectReference platform))
  modelVersions : List (String × String)
  (configurationHashes reasonCodes : List String)
  blockerReason : Option String

def requireSortedUniqueText (platform : Platform) (label : String)
    (values : List String) : Except Raised Unit := do
  values.forM (requireText platform label)
  require (isSorted values = true) (.valueError (label ++ " must be sorted"))
  require values.Nodup (.valueError (label ++ " must be unique"))

def requireReason (platform : Platform) (required : Prop) [Decidable required]
    (missing unwanted : String) (reason : Option String) : Except Raised Unit :=
  if required then do
    require (reason ≠ none) (.valueError missing)
    reason.forM (requireText platform "blocker_reason")
  else require (reason = none) (.valueError unwanted)

namespace ExecutionResultFields

variable {platform : Platform}

/-- One entry of `_validate_model_versions`. -/
def checkModelVersion (platform : Platform) (value : String × String) :
    Except Raised Unit := do
  requireText platform "model_id" value.1
  requireText platform "model_version" value.2
  require (¬ ('@' ∈ value.1.toList ∨ '@' ∈ value.2.toList))
    (.valueError "model identity and version cannot contain '@'")

variable (result : ExecutionResultFields platform)

def validateModelVersions : Except Raised Unit := do
  require (isSorted (result.modelVersions.map toLex) = true)
    (.valueError "model_versions must be sorted")
  require result.modelVersions.Nodup (.valueError "model_versions must be unique")
  result.modelVersions.forM (checkModelVersion platform)

/-- What `_validate_status_pair` asks of the run, by the status of the stage. -/
def checkStatusPair (run : LifecycleRunStatus) : LifecycleStageStatus → Except Raised Unit
  | .skippedNotApplicable => require (run = .running)
      (.valueError "not-applicable stage must leave the run RUNNING")
  | .blocked => require (run = .blockedByModelValidation)
      (.valueError "blocked stage must block on model validation")
  | .waiting => require (run ∈ waitingRunStatuses ∧ run ≠ .blockedByModelValidation)
      (.valueError "waiting stage must return a waiting run status")
  | _ => require (run ≠ .blockedByModelValidation)
      (.valueError "only a blocked stage may block model validation")

def validateStatusPair : Except Raised Unit := do
  require (result.runStatus ∉ [.created, .retrying, .failed])
    (.valueError "handler cannot return a control or failure run status")
  checkStatusPair result.runStatus result.stageStatus
  require (result.runStatus = .completed → result.stageStatus = .completed)
    (.valueError "only a completed stage may complete a run")

/-- `StageExecutionResult.__post_init__`. -/
def check : Except Raised Unit := do
  require (result.stageStatus ∈ receiptStageStatuses)
    (.valueError "stage_status must be receipt-bearing")
  validateObjectReferences "input_references" result.inputReferences
  validateObjectReferences "output_references" result.outputReferences
  result.validateModelVersions
  requireSortedUniqueText platform "configuration_hashes" result.configurationHashes
  result.configurationHashes.forM (requireSha256 "configuration_hashes")
  requireSortedUniqueText platform "reason_codes" result.reasonCodes
  result.validateStatusPair
  requireReason platform (result.stageStatus ∈ reasonedStageStatuses
      ∨ result.runStatus ∈ waitingRunStatuses)
    "waiting, blocked, or skipped result requires a reason"
    "non-reasoned result cannot carry blocker_reason" result.blockerReason
  require (¬ (result.stageStatus = .skippedNotApplicable ∧ result.outputReferences ≠ []))
    (.valueError "not-applicable stage cannot publish output references")

def receiptModelVersions : List String :=
  result.modelVersions.map fun (modelId, version) => modelId ++ "@" ++ version

end ExecutionResultFields

abbrev StageExecutionResult (platform : Platform) := Sealed (@ExecutionResultFields.check platform)

-- ==== the receipt and the transition

section Settlement

variable {platform : Platform}

/-- The fields of `StageReceipt` that its hash is taken of. -/
structure ReceiptValues (platform : Platform) where
  runId : ArtifactId platform
  stageName : LifecycleStageName
  (inputHashes outputHashes modelVersions configurationHashes reasonCodes : List String)
  stageResult : LifecycleStageStatus

variable (values : ReceiptValues platform)

def ReceiptValues.semanticPayload : Json :=
  dict [("schema_version", .str "canonical-lifecycle-stage-receipt-v1"),
    ("run_id", idText values.runId),
    ("stage_name", .str values.stageName.text),
    ("input_hashes", .arr (values.inputHashes.map .str)),
    ("output_hashes", .arr (values.outputHashes.map .str)),
    ("model_versions", .arr (values.modelVersions.map .str)),
    ("configuration_hashes", .arr (values.configurationHashes.map .str)),
    ("reason_codes", .arr (values.reasonCodes.map .str)),
    ("stage_result", .str values.stageResult.text)]

structure ReceiptFields (platform : Platform) extends ReceiptValues platform where
  receiptId : ArtifactId platform
  attemptNumber : Nat
  createdAt : UtcSecond
  receiptHash : String

def requireSortedText (platform : Platform) (label : String)
    (values : List String) : Except Raised Unit := do
  requireUniqueText platform label values
  require (isSorted values = true) (.valueError (label ++ " must be sorted"))

def requirePositive (label : String) (value : Nat) : Except Raised Unit :=
  require (0 < value) (.valueError (label ++ " must be a positive integer"))

def requireSortedHashes (platform : Platform) (label : String)
    (values : List String) : Except Raised Unit := do
  requireSortedText platform label values
  values.forM (requireSha256 label)

/-- `StageReceipt.__post_init__`. -/
def ReceiptFields.check (receipt : ReceiptFields platform) : Except Raised Unit := do
  requirePositive "attempt_number" receipt.attemptNumber
  requireSortedHashes platform "input_hashes" receipt.inputHashes
  requireSortedHashes platform "output_hashes" receipt.outputHashes
  requireSortedHashes platform "configuration_hashes" receipt.configurationHashes
  requireSortedText platform "model_versions" receipt.modelVersions
  requireSortedText platform "reason_codes" receipt.reasonCodes
  require (receipt.stageResult ∈ receiptStageStatuses)
    (.valueError "stage_result is not receipt-bearing")
  requireSha256 "receipt_hash" receipt.receiptHash
  let expectedHash := platform.canonicalHash receipt.semanticPayload
  let expectedId ← construct (validateIdentity platform)
    ("lifecycle-receipt-" ++ shortDigest expectedHash)
  require (receipt.receiptHash = expectedHash ∧ receipt.receiptId = expectedId)
    (.valueError "StageReceipt semantic identity mismatch")

abbrev StageReceipt (platform : Platform) := Sealed (@ReceiptFields.check platform)

def StageReceipt.create (attemptNumber : Nat)
    (createdAt : UtcSecond) : Except Raised (StageReceipt platform) := do
  let digest := platform.canonicalHash values.semanticPayload
  let receiptId ← construct (validateIdentity platform) ("lifecycle-receipt-" ++ shortDigest digest)
  construct ReceiptFields.check ⟨values, receiptId, attemptNumber, createdAt, digest⟩

structure TransitionFields (platform : Platform) where
  runId : ArtifactId platform
  stageName : LifecycleStageName
  attemptId : ArtifactId platform
  (expectedRunVersion expectedStageVersion claimToken : Nat)
  targetRunStatus : LifecycleRunStatus
  receipt : StageReceipt platform
  (inputReferences outputReferences : List (LifecycleObjectReference platform))
  blockerReason : Option String
  completedAt : UtcSecond

def sortedHashes (references : List (LifecycleObjectReference platform)) :
    List String :=
  sortBy id (references.map LifecycleObjectReference.contentHash)

/-- `StageTransition.__post_init__`. -/
def TransitionFields.check (transition : TransitionFields platform) :
    Except Raised Unit := do
  let receipt := transition.receipt.val
  requirePositive "expected_run_version" transition.expectedRunVersion
  requirePositive "expected_stage_version" transition.expectedStageVersion
  requirePositive "claim_token" transition.claimToken
  require (receipt.runId = transition.runId) (.valueError "receipt binds a different run")
  require (receipt.stageName = transition.stageName) (.valueError "receipt binds a different stage")
  require (receipt.stageResult ∈ receiptStageStatuses) (.valueError "receipt must settle the stage")
  validateObjectReferences "input_references" transition.inputReferences
  validateObjectReferences "output_references" transition.outputReferences
  require (receipt.inputHashes = sortedHashes transition.inputReferences)
    (.valueError "receipt input_hashes do not bind input_references")
  require (receipt.outputHashes = sortedHashes transition.outputReferences)
    (.valueError "receipt output_hashes do not bind output_references")
  requireReason platform (receipt.stageResult ∈ reasonedStageStatuses
      ∨ transition.targetRunStatus ∈ waitingRunStatuses)
    "reasoned stage or run result requires blocker_reason"
    "unblocked stage and run cannot carry blocker_reason" transition.blockerReason
  require (receipt.stageResult = .blocked → transition.targetRunStatus = .blockedByModelValidation)
    (.valueError "BLOCKED stage must block the run on model validation")
  require (receipt.stageResult = .waiting → transition.targetRunStatus ∈ waitingRunStatuses
        ∧ transition.targetRunStatus ≠ .blockedByModelValidation)
    (.valueError "WAITING stage must select a non-terminal waiting run state")
  require (¬ (receipt.stageResult ∈ [.completed, .skippedNotApplicable]
      ∧ transition.targetRunStatus ∈ [.blockedByModelValidation, .failed]))
    (.valueError "successful or skipped stage cannot block or fail the run")
  require (receipt.createdAt = transition.completedAt)
    (.valueError "receipt and transition completion times must match")

abbrev StageTransition (platform : Platform) := Sealed (@TransitionFields.check platform)

-- ==== the runner

/-- What the runner reads of the run, its stage and the attempt, and the references
that come before the stage. A stage is started with a positive claim token, and the
other numbers are positive wherever they are stored. -/
structure LifecycleStageContext (platform : Platform) where
  runId : ArtifactId platform
  (runVersion claimToken : Nat)
  modelReferences : List (String × String)
  configurationHashes : List String
  stageName : LifecycleStageName
  stageVersion : Nat
  attemptId : ArtifactId platform
  attemptNumber : Nat
  priorOutputs : List (List (LifecycleObjectReference platform))
  initialReferences : List (LifecycleObjectReference platform)
  runVersion_pos : 0 < runVersion
  claimToken_pos : 0 < claimToken
  stageVersion_pos : 0 < stageVersion
  attemptNumber_pos : 0 < attemptNumber

/-- `LifecycleRunnerInvariantError`. -/
def invariantError (message : String) : Raised := .assertionError message

/-- References by their keys: `setdefault` for each, and the check that it holds what
was there. -/
def gather (conflict : Raised) : List (LifecycleObjectReference platform) →
    List (LifecycleObjectReference platform) →
    Except Raised (List (LifecycleObjectReference platform))
  | references, [] => .ok references
  | references, reference :: rest =>
    match references.find? (·.sortKey = reference.sortKey) with
    | none => gather conflict (references ++ [reference]) rest
    | some existing => do
        require (existing = reference) conflict
        gather conflict references rest

def gatherSorted (conflict : Raised) (label : String)
    (references : List (LifecycleObjectReference platform)) :
    Except Raised (List (LifecycleObjectReference platform)) := do
  let gathered ← gather conflict [] references
  let result := sortBy LifecycleObjectReference.sortKey gathered
  validateObjectReferences label result
  return result

namespace LifecycleStageContext

variable (context : LifecycleStageContext platform)

def upstreamReferences : Except Raised (List (LifecycleObjectReference platform)) :=
  gatherSorted (.valueError "prior stages carry conflicting output references")
    "upstream_references" context.priorOutputs.flatten

def defaultInputs : Except Raised (List (LifecycleObjectReference platform)) := do
  let upstream ← context.upstreamReferences
  gatherSorted (invariantError "stage context carries conflicting input references")
    "failure inputs" (context.initialReferences ++ upstream)

end LifecycleStageContext

variable (result : StageExecutionResult platform)

/-- `_validate_result`, with the clock at `observedAt`. -/
def validateResult (context : LifecycleStageContext platform) (observedAt : UtcSecond) :
    Except Raised Unit := do
  require (context.stageName = .outcomeReview → result.val.runStatus = .completed)
    (invariantError "OUTCOME_REVIEW must complete the lifecycle run")
  require (context.stageName ≠ .outcomeReview → result.val.runStatus ≠ .completed)
    (invariantError "only OUTCOME_REVIEW may complete the lifecycle run")
  require (∀ reference ∈ result.val.inputReferences ++ result.val.outputReferences,
      reference.val.availableAt.seconds ≤ observedAt.seconds)
    (invariantError "stage reference has a future availability time")
  let allowed ← context.defaultInputs
  require (∀ reference ∈ result.val.inputReferences,
      allowed.find? (·.sortKey = reference.sortKey) = some reference)
    (invariantError "stage input is not traceable to initial or upstream references")
  require (result.val.modelVersions ⊆ context.modelReferences)
    (invariantError "stage result uses an undeclared model version")
  require (result.val.configurationHashes ⊆ context.configurationHashes)
    (invariantError "stage result uses an undeclared configuration hash")

def receiptValues (context : LifecycleStageContext platform) : ReceiptValues platform :=
  { runId := context.runId
    stageName := context.stageName
    inputHashes := sortedHashes result.val.inputReferences
    outputHashes := sortedHashes result.val.outputReferences
    modelVersions := result.val.receiptModelVersions
    configurationHashes := result.val.configurationHashes
    reasonCodes := result.val.reasonCodes
    stageResult := result.val.stageStatus }

def transitionFields (context : LifecycleStageContext platform) (receipt : StageReceipt platform)
    (completedAt : UtcSecond) : TransitionFields platform :=
  { runId := context.runId
    stageName := context.stageName
    attemptId := context.attemptId
    expectedRunVersion := context.runVersion
    expectedStageVersion := context.stageVersion
    claimToken := context.claimToken
    targetRunStatus := result.val.runStatus
    receipt := receipt
    inputReferences := result.val.inputReferences
    outputReferences := result.val.outputReferences
    blockerReason := result.val.blockerReason
    completedAt := completedAt }

/-- The receipt and the transition of `_settle_stage`, with the clock at
`completedAt`. -/
def buildTransition (context : LifecycleStageContext platform) (completedAt : UtcSecond) :
    Except Raised (StageTransition platform) := do
  let receipt ← StageReceipt.create (receiptValues result context) context.attemptNumber completedAt
  construct TransitionFields.check (transitionFields result context receipt completedAt)

/-- The second guarded block of `_settle_stage`: an error of it fails the stage. -/
def settledTransition (context : LifecycleStageContext platform)
    (observedAt completedAt : UtcSecond) :
    Except Raised (StageTransition platform) := do
  validateResult result context observedAt
  buildTransition result context completedAt

end Settlement

end MarketRegimeAlpha.Lifecycle
