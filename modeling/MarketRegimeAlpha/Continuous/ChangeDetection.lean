/-
What a tick's evidence is compared with, and the decision that follows.

`created_at` of an evidence commit is the order its row was inserted in.
A commit's trading date, and the identity and the hash of a decision, are
functions of what is committed and decided: the row of a commit has its
other fields inside its hash, and a decision's identity is cut from the
digest of its semantic payload. The reason code is one for each type.
-/
import MarketRegimeAlpha.Continuous.Journal

namespace MarketRegimeAlpha.Continuous

open Lib

variable (j : Journal)

/-- `tick_sequence` of a tick. -/
def Journal.sequenceOf (runId tickId : String) : Option Nat :=
  (j.tick? runId tickId).map (·.tickSequence)

/-- The evidence of a scope, by the place of its tick, where that is
before the tick's. -/
def Journal.priorEvidence (runId tickId evidenceScope : String) : List (Nat × EvidenceCommit) :=
  j.evidence.filterMap fun row => do
    let sequence ← j.sequenceOf runId tickId
    let prior ← j.sequenceOf runId row.tickId
    if row.runId = runId ∧ row.evidenceScope = evidenceScope ∧ prior < sequence then
      some (prior, row)
    else none

def Journal.getPriorEvidenceCommit (runId tickId evidenceScope : String) : Option EvidenceCommit :=
  ((sortBy (·.1) (j.priorEvidence runId tickId evidenceScope)).getLast?).map (·.2)

/-- What a decision's identity is cut from: the id and the hash of the
decision on this evidence, with this type, after that evidence. -/
structure Digest where
  (decisionId decisionHash : EvidenceCommit → Option EvidenceCommit → DecisionType → String)

def decisionTypeOf (evidence : EvidenceCommit) (previousEvidence : Option EvidenceCommit)
    (downstreamContractSatisfied : Bool) : DecisionType :=
  if downstreamContractSatisfied = false then .dataInsufficient
  else match previousEvidence with
    | none => .initialEvidence
    | some previous =>
      if previous.materialIdentityHash = evidence.materialIdentityHash then .noMaterialChange
      else .materialChange

def decisionOn (digest : Digest) (evidence : EvidenceCommit)
    (previousEvidence : Option EvidenceCommit) (downstreamContractSatisfied : Bool) :
    ChangeDecision :=
  let decisionType := decisionTypeOf evidence previousEvidence downstreamContractSatisfied
  { decisionId := digest.decisionId evidence previousEvidence decisionType
    decisionHash := digest.decisionHash evidence previousEvidence decisionType
    runId := evidence.runId
    tickId := evidence.tickId
    providerAttemptId := evidence.attemptId
    evidenceCommitId := evidence.evidenceCommitId
    evidenceCommitHash := evidence.commitHash
    previousEvidence := previousEvidence.map fun previous =>
      ⟨previous.evidenceCommitId, previous.commitHash, previous.materialIdentityHash⟩
    decisionType := decisionType
    currentMaterialIdentityHash := evidence.materialIdentityHash }

def ChangeDecision.create (digest : Digest) (tradingDate : EvidenceCommit → String)
    (evidence : EvidenceCommit) (previousEvidence : Option EvidenceCommit)
    (downstreamContractSatisfied : Bool) : Except Error ChangeDecision := do
  require (∀ previous ∈ previousEvidence, previous.runId = evidence.runId
      ∧ previous.evidenceScope = evidence.evidenceScope
      ∧ tradingDate previous = tradingDate evidence)
    (.raised (.valueError "previous Evidence scope does not match current Evidence"))
  return decisionOn digest evidence previousEvidence downstreamContractSatisfied

end MarketRegimeAlpha.Continuous
