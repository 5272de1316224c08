import RootPermit.Broker.Store

/-!
# Decisions and terminal outcomes

The operations of `BrokerStore` that close a request, and
`apply_webauthn_submission`, which decides it.  The latter reads first, outside any
transaction, and acts on what it read in one transaction.  Another handle may
commit between two of its reads and before its transaction, so the tables of each
read are arguments (`Snapshots`).
-/

namespace RootPermit
namespace Broker

open Foundation Protocol WebAuthn

/-! ### Terminal transitions -/

def transitionTerminalWithEvidence [Cryptography] (requestId : PublicId)
    (expected next : RequestState) (signer : BrokerSigningKey) (nowUtc : Int64)
    (authorizationEvidence : List CborValue) (entropy : Entropy) : Tx Bytes := do
  attempt (rejectIf (next.isTerminal = false ∨ expected.permits next = false)
    (.invalidTransition expected next))
  ensureIdentity signer
  appendTransition requestId (some expected) next (transitionReason next)
  createReceipt requestId next signer nowUtc authorizationEvidence entropy

def transitionTerminal [Cryptography] (requestId : PublicId)
    (expected next : RequestState) (signer : BrokerSigningKey) (nowUtc : Int64)
    (entropy : Entropy) : Tx Bytes :=
  transitionTerminalWithEvidence requestId expected next signer nowUtc [] entropy

def reconcileRecovery [Cryptography] (requestId : PublicId) (succeeded : Bool)
    (operatorEvidence : Bytes) (signer : BrokerSigningKey) (nowUtc : Int64)
    (entropy : Entropy) : Tx Bytes := do
  attempt (rejectIf (operatorEvidence = [] ∨ 65536 < operatorEvidence.length)
    .corruptState)
  let next := if succeeded then RequestState.succeeded else .failed
  let reason :=
    if succeeded then TransitionReason.reconciledSucceeded else .reconciledFailed
  ensureIdentity signer
  appendTransition requestId (some .recoveryRequired) next reason
  -- The receipt is made from the row, so the evidence has to be there first.
  updateRequest requestId fun row =>
    { row with recoveryEvidence := some operatorEvidence }
  createReceipt requestId next signer nowUtc [] entropy

/-! ### Reads of a decision -/

/-- The approval context of a pending request.  It takes two queries: one of the
request and one of the identity. -/
def approvalContext (deviceIdBytes : ByteArr 16) (requestId : PublicId)
    (decision : Decision) (relyingParty : WebAuthnRelyingParty)
    (request identity : Tables) : Except BrokerError ApprovalContext := do
  let row ← requestRow requestId request
  let requestDigest ← orFault (.sqlite .invalidColumnType) row.requestDigest
  let nonce ← orFault (.sqlite .invalidColumnType) row.requestNonce
  -- The columns are read with the row, before its state is looked at.
  rejectIf (row.state ≠ .pending) (.lifecycleRaceLost row.state)
  let identity ← identityRow identity
  let requestId ← requestId.bytes
  let brokerEpoch ← orFault .numericOutOfRange (toU64? identity.brokerEpoch.toInt)
  let requestDigest ← orFault .corruptState (ByteArr.ofBytes? 32 requestDigest)
  let generation ← orFault .numericOutOfRange (toU64? row.generation.toInt)
  let nonce ← orFault .corruptState (ByteArr.ofBytes? 32 nonce)
  let expiresUtc ← orFault .corruptState row.requestExpiresUtc
  return { requestId
           deviceId := deviceIdBytes
           brokerEpoch, requestDigest, generation, nonce
           rpId := relyingParty.rpId
           origin := relyingParty.origin
           decision, expiresUtc }

def deadlineElapsed (requestId : PublicId) (nowMonoNs : UInt64) (tables : Tables) :
    Except BrokerError Bool := do
  let row ← requestRow requestId tables
  let deadline ← orFault .corruptState row.deadlineMonoNs
  let deadline ← orFault .numericOutOfRange (toU64? deadline.toInt)
  return decide (deadline ≤ nowMonoNs)

/-- The tables at the reads of one `apply_webauthn_submission`, in their order. -/
structure Snapshots where
  request : Tables
  identity : Tables
  deadline : Tables
  generation : Tables
  credentials : Tables

/-- All reads see the same tables. -/
def Snapshots.at (tables : Tables) : Snapshots :=
  ⟨tables, tables, tables, tables, tables⟩

/-- What the reads of a decision come to. -/
inductive Reading where
  | close (next : RequestState)
  | decided (context : ApprovalContext) (verified : VerifiedAssertion)

/-- The arguments of `apply_webauthn_submission`, less the signer. -/
structure DecisionAttempt where
  requestId : PublicId
  submission : DecisionSubmission
  verifier : ReviewedWebAuthnVerifier
  relyingParty : WebAuthnRelyingParty
  nowMonoNs : UInt64
  nowUtc : Int64

/-- The pending context, which the submission has to repeat. -/
def DecisionAttempt.context (attempt : DecisionAttempt)
    (deviceIdBytes : ByteArr 16) (request identity : Tables) :
    Except BrokerError ApprovalContext := do
  let context ← approvalContext deviceIdBytes attempt.requestId
    attempt.submission.approvalContext.decision attempt.relyingParty request identity
  rejectIf (context ≠ attempt.submission.approvalContext)
    (.webAuthn .contextMismatch)
  return context

/-- The deadline is not read when the request has expired by the wall clock. -/
def DecisionAttempt.isExpired (attempt : DecisionAttempt)
    (context : ApprovalContext) (deadline : Tables) : Except BrokerError Bool :=
  if context.expiresUtc ≤ attempt.nowUtc then .ok true
  else deadlineElapsed attempt.requestId attempt.nowMonoNs deadline

/-- Expiry is looked for first, then a change of the credential generation; only
then is the assertion verified. -/
def DecisionAttempt.read [Cryptography] (attempt : DecisionAttempt)
    (deviceIdBytes : ByteArr 16) (snapshots : Snapshots) :
    Except BrokerError Reading := do
  let context ← attempt.context deviceIdBytes snapshots.request snapshots.identity
  let expired ← attempt.isExpired context snapshots.deadline
  if expired then return .close .expired
  else do
    let activeGeneration ← credentialGeneration snapshots.generation
    if activeGeneration ≠ context.generation then return .close .stale
    else do
      let credentials ← pinnedCredentials activeGeneration snapshots.credentials
      let verified ← (verifySubmission attempt.verifier context credentials
        attempt.submission).mapError BrokerError.webAuthn
      return .decided context verified

/-! ### The transaction of a decision -/

structure DecisionOutcome where
  state : RequestState
  receiptCose : Option Bytes
  deriving DecidableEq, Repr

def decidedState : Decision → RequestState
  | .approve => .approved
  | .deny => .denied

/-- Raises the signature counter of the credential that was used. -/
def raiseSignCount (verified : VerifiedAssertion) : Tx Unit :=
  execute fun tables =>
    { tables with
      credentials := Table.update
        (fun row => decide (row.credentialId = verified.credentialId))
        (fun row => { row with
          signCount := max row.signCount (Int64.ofNat verified.signCount.toNat) })
        tables.credentials }

/-- The evidence of a denial. -/
def denialEvidence (submission : DecisionSubmission)
    (verified : VerifiedAssertion) : CborValue :=
  .map [(.unsigned 1, .bytes submission.credentialId),
    (.unsigned 2, .bool verified.counterAnomaly)]

/-- Rechecks the state and the generation, then commits the decision. -/
def commitDecision [Cryptography] (requestId : PublicId)
    (submission : DecisionSubmission) (context : ApprovalContext)
    (verified : VerifiedAssertion) (signer : BrokerSigningKey) (nowUtc : Int64)
    (entropy : Entropy) : Tx DecisionOutcome := do
  ensureIdentity signer
  -- The reads were made outside of this transaction.
  let row ← query (requestRow requestId)
  attempt (rejectIf (row.state ≠ .pending) (.lifecycleRaceLost row.state))
  let currentGeneration ← query credentialGeneration
  if currentGeneration ≠ context.generation then do
    appendTransition requestId (some .pending) .stale .generationStale
    let receipt ← createReceipt requestId .stale signer nowUtc [] entropy
    return { state := .stale, receiptCose := some receipt }
  else do
    let next := decidedState verified.decision
    appendTransition requestId (some .pending) next (transitionReason next)
    raiseSignCount verified
    -- Only a denial ends the request; an approved one gets its receipt later.
    if next.isTerminal then do
      let receipt ← createReceipt requestId next signer nowUtc
        [denialEvidence submission verified] entropy
      return { state := next, receiptCose := some receipt }
    else return { state := next, receiptCose := none }

def applyWebauthnSubmission [Cryptography] (deviceIdBytes : ByteArr 16)
    (snapshots : Snapshots) (decision : DecisionAttempt)
    (signer : BrokerSigningKey) (entropy : Entropy) : Tx DecisionOutcome := do
  match ← attempt (decision.read deviceIdBytes snapshots) with
  | .close next => do
      let receipt ← transitionTerminal decision.requestId .pending next signer
        decision.nowUtc entropy
      return { state := next, receiptCose := some receipt }
  | .decided context verified =>
      commitDecision decision.requestId decision.submission context verified signer
        decision.nowUtc entropy

end Broker
end RootPermit
