import RootPermit.Protocol.Schema

/-!
# Verification of WebAuthn submissions

This module embeds `rp-web-authn/src/lib.rs`.  The reviewed WebAuthn library is
a parameter: it returns the facts of an assertion whose signature it has
verified, or rejects it.
-/

namespace RootPermit
namespace WebAuthn

open Foundation Protocol

def ES256_ALGORITHM : Int64 := -7

inductive WebAuthnError where
  | submission (fault : SchemaError)
  | contextMismatch
  | credentialNotPinned
  | credentialQuarantined
  | unsupportedAlgorithm
  | assertionRejected
  | credentialMismatch
  | clientDataTypeMismatch
  | challengeMismatch
  | originMismatch
  | rpIdMismatch
  | userPresenceMissing
  | userVerificationMissing
  deriving DecidableEq, Repr

/-- A root-pinned approval credential. -/
structure PinnedCredential where
  credentialId : Bytes
  generation : UInt64
  quarantined : Bool
  coseAlgorithm : Int64
  previousSignCount : UInt32
  deriving DecidableEq, Repr

/-- The facts returned by the reviewed library. -/
structure LibraryVerifiedAssertion where
  credentialId : Bytes
  clientDataType : String
  challenge : Bytes
  origin : String
  rpIdHash : ByteArr 32
  userPresent : Bool
  userVerified : Bool
  coseAlgorithm : Int64
  signCount : UInt32
  deriving DecidableEq, Repr

/-- `verify_assertion` of a reviewed library; rejection carries no detail. -/
abbrev ReviewedWebAuthnVerifier :=
  DecisionSubmission → PinnedCredential → Option LibraryVerifiedAssertion

structure VerifiedAssertion where
  credentialId : Bytes
  decision : Decision
  generation : UInt64
  signCount : UInt32
  counterAnomaly : Bool
  deriving DecidableEq, Repr

/-- The credential of a submission, checked against the pending context. -/
def pinnedFor (pendingContext : ApprovalContext)
    (pinnedCredentials : List PinnedCredential) (submission : DecisionSubmission) :
    Except WebAuthnError PinnedCredential := do
  let pinned ← orFault .credentialNotPinned
    (pinnedCredentials.find? fun credential =>
      credential.credentialId == submission.credentialId)
  rejectIf (pinned.quarantined = true) .credentialQuarantined
  rejectIf (pinned.generation ≠ pendingContext.generation) .credentialNotPinned
  rejectIf (pinned.coseAlgorithm ≠ ES256_ALGORITHM) .unsupportedAlgorithm
  return pinned

/-- The facts of an assertion, checked against the pending context. -/
def checkAssertion [Cryptography] (pendingContext : ApprovalContext)
    (submission : DecisionSubmission) (assertion : LibraryVerifiedAssertion) :
    Except WebAuthnError Unit := do
  rejectIf (assertion.credentialId ≠ submission.credentialId) .credentialMismatch
  rejectIf (assertion.coseAlgorithm ≠ ES256_ALGORITHM) .unsupportedAlgorithm
  rejectIf (assertion.clientDataType ≠ "webauthn.get") .clientDataTypeMismatch
  let challenge ← pendingContext.webauthnChallenge.mapError .submission
  rejectIf (assertion.challenge ≠ challenge.val) .challengeMismatch
  rejectIf (assertion.origin ≠ pendingContext.origin) .originMismatch
  rejectIf (assertion.rpIdHash ≠ sha256 (utf8 pendingContext.rpId)) .rpIdMismatch
  rejectIf (assertion.userPresent = false) .userPresenceMissing
  rejectIf (assertion.userVerified = false) .userVerificationMissing

def verifySubmission [Cryptography] (verifier : ReviewedWebAuthnVerifier)
    (pendingContext : ApprovalContext) (pinnedCredentials : List PinnedCredential)
    (submission : DecisionSubmission) : Except WebAuthnError VerifiedAssertion := do
  submission.validate.mapError .submission
  rejectIf (submission.approvalContext ≠ pendingContext) .contextMismatch
  let pinned ← pinnedFor pendingContext pinnedCredentials submission
  let assertion ← orFault .assertionRejected (verifier submission pinned)
  checkAssertion pendingContext submission assertion
  let counterAnomaly := decide (pinned.previousSignCount ≠ 0 ∧
    assertion.signCount ≠ 0 ∧ assertion.signCount ≤ pinned.previousSignCount)
  return { credentialId := assertion.credentialId
           decision := pendingContext.decision
           generation := pendingContext.generation
           signCount := assertion.signCount
           counterAnomaly }

/-! ### Accepted submissions -/

/-- The credential is the one of the submission, and it may decide in the pending
context. -/
structure PinnedCredential.Serves (pinned : PinnedCredential)
    (pendingContext : ApprovalContext) (submission : DecisionSubmission) : Prop where
  credentialId : pinned.credentialId = submission.credentialId
  trusted : pinned.quarantined = false
  generation : pinned.generation = pendingContext.generation
  algorithm : pinned.coseAlgorithm = ES256_ALGORITHM

theorem pinnedFor_eq_ok {pendingContext : ApprovalContext}
    {pinnedCredentials : List PinnedCredential} {submission : DecisionSubmission}
    {pinned : PinnedCredential}
    (h : pinnedFor pendingContext pinnedCredentials submission = .ok pinned) :
    pinned ∈ pinnedCredentials ∧ pinned.Serves pendingContext submission := by
  simp only [pinnedFor, bind_eq_ok_iff, orFault_eq_ok_iff, rejectIf_eq_ok_iff,
    pure_eq_ok, Except.ok.injEq] at h
  obtain ⟨found, hFound, _, hTrusted, _, hGeneration, _, hAlgorithm, rfl⟩ := h
  have hSame := List.find?_some hFound
  exact ⟨List.mem_of_find?_eq_some hFound,
    { credentialId := beq_iff_eq.mp hSame
      trusted := Bool.eq_false_iff.mpr hTrusted
      generation := not_not.mp hGeneration
      algorithm := not_not.mp hAlgorithm }⟩

section Facts

variable [Cryptography] {pendingContext : ApprovalContext}
  {submission : DecisionSubmission} {assertion : LibraryVerifiedAssertion}

/-- The assertion repeats the credential of the submission and answers the challenge
of the context, at its origin and for its relying party, with the user present and
verified. -/
structure AssertionBinds (pendingContext : ApprovalContext)
    (submission : DecisionSubmission) (assertion : LibraryVerifiedAssertion) :
    Prop where
  credentialId : assertion.credentialId = submission.credentialId
  algorithm : assertion.coseAlgorithm = ES256_ALGORITHM
  clientDataType : assertion.clientDataType = "webauthn.get"
  challenge : ∃ challenge, pendingContext.webauthnChallenge = .ok challenge ∧
    assertion.challenge = challenge.val
  origin : assertion.origin = pendingContext.origin
  rpIdHash : assertion.rpIdHash = sha256 (utf8 pendingContext.rpId)
  userPresent : assertion.userPresent = true
  userVerified : assertion.userVerified = true

theorem checkAssertion_eq_ok_iff {done : Unit} :
    checkAssertion pendingContext submission assertion = .ok done ↔
      AssertionBinds pendingContext submission assertion := by
  simp only [checkAssertion, bind_eq_ok_iff, rejectIf_eq_ok_iff, mapError_eq_ok_iff,
    ne_eq, not_not, Bool.not_eq_false]
  constructor
  · intro h
    obtain ⟨_, hCredential, _, hAlgorithm, _, hType, challenge, hChallenge, _, hAnswer,
      _, hOrigin, _, hParty, _, hPresent, hVerified⟩ := h
    exact ⟨hCredential, hAlgorithm, hType, ⟨challenge, hChallenge, hAnswer⟩, hOrigin,
      hParty, hPresent, hVerified⟩
  · intro h
    obtain ⟨challenge, hChallenge, hAnswer⟩ := h.challenge
    exact ⟨(), h.credentialId, (), h.algorithm, (), h.clientDataType, challenge,
      hChallenge, (), hAnswer, (), h.origin, (), h.rpIdHash, (), h.userPresent,
      h.userVerified⟩

/-- What was checked of a submission that is accepted. -/
theorem verifySubmission_eq_ok {verifier : ReviewedWebAuthnVerifier}
    {pinnedCredentials : List PinnedCredential} {verified : VerifiedAssertion}
    (h : verifySubmission verifier pendingContext pinnedCredentials submission =
      .ok verified) :
    submission.approvalContext = pendingContext ∧
      verified.decision = pendingContext.decision ∧
      ∃ pinned ∈ pinnedCredentials, pinned.Serves pendingContext submission ∧
        ∃ assertion, verifier submission pinned = some assertion ∧
          AssertionBinds pendingContext submission assertion ∧
          verified.credentialId = assertion.credentialId ∧
          verified.signCount = assertion.signCount := by
  simp only [verifySubmission, bind_eq_ok_iff, mapError_eq_ok_iff, rejectIf_eq_ok_iff,
    orFault_eq_ok_iff, checkAssertion_eq_ok_iff, pure_eq_ok, Except.ok.injEq] at h
  obtain ⟨_, -, _, hContext, pinned, hPinned, assertion, hAssertion, _, hBinds, rfl⟩ :=
    h
  obtain ⟨hMem, hServes⟩ := pinnedFor_eq_ok hPinned
  exact ⟨not_not.mp hContext, rfl, pinned, hMem, hServes, assertion, hAssertion,
    hBinds, rfl, rfl⟩

end Facts

end WebAuthn
end RootPermit
