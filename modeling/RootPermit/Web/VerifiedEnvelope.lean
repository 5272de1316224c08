import RootPermit.Foundation.Bytes
import RootPermit.Foundation.Double
import RootPermit.Foundation.Outcome

/-!
# Verified broker requests

This module embeds `service/web/src/verified-envelope.ts`: the claims that a verifier
returns, what is required of them, and the frozen request that is made of them.

The verifier and the parser of URLs are not part of the page.  The verifier is any
function, and the parser is a parameter.

* `verifyBrokerEnvelope_bound` — what holds of every request that is verified.
-/

namespace RootPermit
namespace Web

open Foundation

/-- `new URL`, as far as the page reads the result; nothing where it throws. -/
structure Url where
  protocol : Text
  pathname : Text
  search : Text
  hash : Text
  deriving DecidableEq, Repr

class UrlParser where
  parse : Text → Option Url

def MAX_AGENT_NOTE_LENGTH : Nat := 4096

def MAX_PACKAGE_CHANGES : Nat := 1024

def MAX_CREDENTIALS : Nat := 5

/-! ### Claims -/

inductive Decision where
  | approve
  | deny
  deriving DecidableEq, Repr

structure PackageChange where
  name : Text
  version : Text
  deriving DecidableEq, Repr

structure BrokerPinnedCredential where
  id : Text
  algorithm : Text
  deriving DecidableEq, Repr

structure BrokerApprovalContext where
  requestId : Text
  requestDigest : Bytes
  deviceId : Text
  policyId : Text
  policyVersion : Double
  expiresAtUnixMs : Double
  decision : Decision
  contextDigest : Bytes
  webauthnChallenge : Bytes
  deriving DecidableEq, Repr

/-- A record with one entry for each decision. -/
structure Contexts (γ : Type) where
  approve : γ
  deny : γ
  deriving DecidableEq, Repr

def Contexts.get {γ : Type} (contexts : Contexts γ) : Decision → γ
  | .approve => contexts.approve
  | .deny => contexts.deny

structure Device where
  id : Text
  displayName : Text
  deriving DecidableEq, Repr

structure Policy where
  id : Text
  version : Double
  deriving DecidableEq, Repr

structure Consequences where
  target : PackageChange
  dependencies : List PackageChange
  removals : List PackageChange
  downgrades : List PackageChange
  origin : Text
  archiveBytes : Double
  diskBytes : Double
  deriving DecidableEq, Repr

structure WebAuthn (γ : Type) where
  rpId : Text
  origin : Text
  credentials : List BrokerPinnedCredential
  contexts : Contexts γ
  deriving DecidableEq, Repr

/-- A request with contexts of some type. -/
structure BrokerRequest (γ : Type) where
  requestId : Text
  requestDigest : Bytes
  device : Device
  policy : Policy
  expiresAtUnixMs : Double
  consequences : Consequences
  agentNote : Option Text
  webauthn : WebAuthn γ
  deriving DecidableEq, Repr

/-- What a verifier returns; a context may be missing. -/
abbrev BrokerRequestClaims : Type :=
  BrokerRequest (Option BrokerApprovalContext)

abbrev VerifiedBrokerRequest : Type :=
  BrokerRequest BrokerApprovalContext

/-- A verifier returns claims or throws. -/
abbrev BrokerEnvelopeVerifier : Type :=
  Bytes → Except String BrokerRequestClaims

/-! ### Formats -/

def isLowercase (unit : UInt16) : Bool :=
  decide (0x61 ≤ unit ∧ unit ≤ 0x7a)

def isDigit (unit : UInt16) : Bool :=
  decide (0x30 ≤ unit ∧ unit ≤ 0x39)

def isUppercase (unit : UInt16) : Bool :=
  decide (0x41 ≤ unit ∧ unit ≤ 0x5a)

/-- `PUBLIC_ID`: 22 letters, digits, `_` and `-`. -/
def isPublicId (value : Text) : Bool :=
  decide (value.length = 22) && value.all fun unit =>
    isUppercase unit || isLowercase unit || isDigit unit || unit == 0x5f || unit == 0x2d

/-- `PACKAGE_NAME`. -/
def isPackageName : Text → Bool
  | [] => false
  | first :: rest =>
      (isLowercase first || isDigit first) && decide (rest.length ≤ 127) &&
        rest.all fun unit => isLowercase unit || isDigit unit || unit == 0x2b ||
          unit == 0x2e || unit == 0x2d

/-- A label of a domain: it begins and ends with a letter or a digit. -/
def isLabel (label : Text) : Bool :=
  let inner := fun unit => isLowercase unit || isDigit unit
  decide (1 ≤ label.length ∧ label.length ≤ 63) &&
    label.head?.any inner && label.getLast?.any inner &&
    label.all fun unit => inner unit || unit == 0x2d

/-- At least two labels with dots between them. -/
def isRpId (value : Text) : Bool :=
  let labels := value.splitOn 0x2e
  decide (2 ≤ labels.length) && labels.all isLabel

def isOrigin [UrlParser] (value : Text) : Bool :=
  match UrlParser.parse value with
  | some url => decide (url.protocol = literal "https:" ∧ url.pathname = literal "/" ∧
      url.search = [] ∧ url.hash = [])
  | none => false

/-! ### Validation -/

def requirePublicId (value : Text) (name : String) : Except String Unit :=
  rejectIf (isPublicId value = false) (name ++ " is not opaque")

def requireDigest (value : Bytes) (name : String) : Except String Unit :=
  rejectIf (value.length ≠ 32) (name ++ " must be SHA-256")

def requireText (value : Text) (name : String) (max : Nat) : Except String Unit :=
  rejectIf (value.length < 1 ∨ max < value.length) (name ++ " must be bounded text")

def requireSafeInteger (value : Double) (name : String) (min : ℚ) :
    Except String Unit :=
  rejectIf (value.isSafeInteger = false ∨ value.lt (.finite min) = true)
    (name ++ " must be a safe integer")

/-- Compares all bytes whatever they are. -/
def equalBytes (left right : Bytes) : Bool :=
  if left.length ≠ right.length then false
  else
    (List.zipWith (· ^^^ ·) left right).foldl (· ||| ·) (0 : UInt8) == 0

def validatePackage (change : PackageChange) : Except String Unit := do
  rejectIf (isPackageName change.name = false) "package name is invalid"
  requireText change.version "package version" 256

def validateChanges (changes : List PackageChange) : Except String Unit := do
  rejectIf (MAX_PACKAGE_CHANGES < changes.length) "too many package changes"
  changes.forM validatePackage

def validateConsequences (consequences : Consequences) : Except String Unit := do
  validatePackage consequences.target
  [consequences.dependencies, consequences.removals, consequences.downgrades].forM
    validateChanges
  requireText consequences.origin "origin" 256
  requireSafeInteger consequences.archiveBytes "archive impact" 0
  rejectIf (consequences.diskBytes.isSafeInteger = false)
    "disk impact must be a safe integer"

/-- Checks the credentials in turn; `seen` are the ids of those before. -/
def validateCredentials (seen : List Text) :
    List BrokerPinnedCredential → Except String Unit
  | [] => .ok ()
  | credential :: rest => do
      requirePublicId credential.id "credential id"
      rejectIf (credential.algorithm ≠ literal "ES256" ∨ credential.id ∈ seen)
        "invalid pinned credential"
      validateCredentials (credential.id :: seen) rest

/-- The context repeats the bindings of the request. -/
def BrokerApprovalContext.Binds {γ : Type} (context : BrokerApprovalContext)
    (request : BrokerRequest γ) : Prop :=
  context.requestId = request.requestId ∧ context.deviceId = request.device.id ∧
    context.policyId = request.policy.id ∧
    context.policyVersion.strictEq request.policy.version = true ∧
    context.expiresAtUnixMs.strictEq request.expiresAtUnixMs = true ∧
    equalBytes context.requestDigest request.requestDigest = true

instance {γ : Type} (context : BrokerApprovalContext) (request : BrokerRequest γ) :
    Decidable (context.Binds request) :=
  inferInstanceAs (Decidable (_ ∧ _))

def validateContext (claims : BrokerRequestClaims) (decision : Decision) :
    Except String Unit := do
  let context ←
    orFault "missing decision context" (claims.webauthn.contexts.get decision)
  rejectIf (context.decision ≠ decision) "missing decision context"
  rejectIf (¬ context.Binds claims) "approval context does not bind this request"
  requireDigest context.contextDigest "approval context digest"
  requireDigest context.webauthnChallenge "WebAuthn challenge"

/-- The contexts differ in their digest and in their challenge. -/
def validateDistinct (contexts : Contexts (Option BrokerApprovalContext)) :
    Except String Unit := do
  let approve ← orFault "missing decision context" contexts.approve
  let deny ← orFault "missing decision context" contexts.deny
  rejectIf (equalBytes approve.contextDigest deny.contextDigest = true ∨
    equalBytes approve.webauthnChallenge deny.webauthnChallenge = true)
    "approve and deny contexts must be distinct"

def validateWebAuthn [UrlParser] (claims : BrokerRequestClaims) :
    Except String Unit := do
  let webauthn := claims.webauthn
  rejectIf (isRpId webauthn.rpId = false ∨ isOrigin webauthn.origin = false)
    "invalid WebAuthn relying-party binding"
  rejectIf (webauthn.credentials.length < 1 ∨
    MAX_CREDENTIALS < webauthn.credentials.length)
    "broker must pin one through five credentials"
  validateCredentials [] webauthn.credentials
  [Decision.approve, .deny].forM (validateContext claims)
  validateDistinct webauthn.contexts

/-- The note of the agent may be absent. -/
def validateNote : Option Text → Except String Unit
  | some note => requireText note "agent note" MAX_AGENT_NOTE_LENGTH
  | none => .ok ()

def validateClaims [UrlParser] (claims : BrokerRequestClaims) :
    Except String Unit := do
  requirePublicId claims.requestId "request id"
  requireDigest claims.requestDigest "request digest"
  requirePublicId claims.device.id "device id"
  requireText claims.device.displayName "device display name" 128
  requireText claims.policy.id "policy id" 128
  requireSafeInteger claims.policy.version "policy version" 1
  requireSafeInteger claims.expiresAtUnixMs "expiry" 1
  validateConsequences claims.consequences
  validateNote claims.agentNote
  validateWebAuthn claims

/-- Copies the claims; a missing context has no bytes to copy. -/
def freezeRequest (claims : BrokerRequestClaims) :
    Except String VerifiedBrokerRequest := do
  let approve ← orFault "context is undefined" claims.webauthn.contexts.approve
  let deny ← orFault "context is undefined" claims.webauthn.contexts.deny
  return { requestId := claims.requestId
           requestDigest := claims.requestDigest
           device := claims.device
           policy := claims.policy
           expiresAtUnixMs := claims.expiresAtUnixMs
           consequences := claims.consequences
           agentNote := claims.agentNote
           webauthn :=
             { rpId := claims.webauthn.rpId
               origin := claims.webauthn.origin
               credentials := claims.webauthn.credentials
               contexts := { approve, deny } } }

/-! ### Verification -/

inductive CeremonyCode where
  | requestExpired
  | webauthnOriginMismatch
  deriving DecidableEq, Repr

/-- What the functions of the page throw. -/
inductive WebError where
  | envelopeVerification
  | ceremonyUnavailable (code : CeremonyCode)
  | error (message : String)
  deriving DecidableEq, Repr

/-- Whatever the verifier or the validation throw, one error is seen. -/
def verifyBrokerEnvelope [UrlParser] (envelope : Bytes)
    (verifier : BrokerEnvelopeVerifier) : Except WebError VerifiedBrokerRequest := do
  rejectIf (envelope.length < 1 ∨ 512 * 1024 < envelope.length) .envelopeVerification
  let verified : Except String VerifiedBrokerRequest := do
    let claims ← verifier envelope
    validateClaims claims
    freezeRequest claims
  verified.mapError fun _ => .envelopeVerification

/-! ### What holds of a verified request -/

theorem foldl_or_eq_zero_iff {bytes : Bytes} {start : UInt8} :
    bytes.foldl (· ||| ·) start = 0 ↔ start = 0 ∧ ∀ byte ∈ bytes, byte = 0 := by
  induction bytes generalizing start with
  | nil => simp
  | cons byte rest ih =>
      rw [List.foldl_cons, ih, UInt8.or_eq_zero_iff, List.forall_mem_cons, and_assoc]

/-- The comparison finds exactly the equal ones. -/
theorem equalBytes_eq_true_iff {left right : Bytes} :
    equalBytes left right = true ↔ left = right := by
  unfold equalBytes
  split
  · rename_i hLength
    simp only [Bool.false_eq_true, false_iff]
    rintro rfl
    exact hLength rfl
  · rename_i hLength
    rw [not_not] at hLength
    rw [beq_iff_eq, foldl_or_eq_zero_iff]
    simp only [true_and]
    induction left generalizing right with
    | nil =>
        cases right with
        | nil => simp
        | cons byte rest => cases hLength
    | cons byte rest ih =>
        cases right with
        | nil => cases hLength
        | cons other others =>
            rw [List.length_cons, List.length_cons, Nat.add_right_cancel_iff] at hLength
            rw [List.zipWith_cons_cons, List.forall_mem_cons, ih hLength,
              UInt8.xor_eq_zero_iff, List.cons.injEq]

theorem strictEq_eq_true {left right : Double} (h : left.strictEq right = true) :
    left = right := by
  unfold Double.strictEq at h
  rw [Bool.and_eq_true, decide_eq_true_eq] at h
  exact h.1

theorem validateCredentials_eq_ok {seen : List Text}
    {credentials : List BrokerPinnedCredential} {result : Unit}
    (h : validateCredentials seen credentials = .ok result) :
    ∀ credential ∈ credentials, isPublicId credential.id = true := by
  induction credentials generalizing seen with
  | nil => nofun
  | cons credential rest ih =>
      simp only [validateCredentials, requirePublicId, bind_eq_ok_iff, rejectIf_eq_ok_iff,
        Bool.not_eq_false] at h
      obtain ⟨_, hId, _, -, hRest⟩ := h
      exact List.forall_mem_cons.mpr ⟨hId, ih hRest⟩

/-- A context of a request repeats its bindings. -/
structure BoundContext (request : VerifiedBrokerRequest) (decision : Decision)
    (context : BrokerApprovalContext) : Prop where
  decision : context.decision = decision
  requestId : context.requestId = request.requestId
  requestDigest : context.requestDigest = request.requestDigest
  expiresAtUnixMs : context.expiresAtUnixMs = request.expiresAtUnixMs

/-- The contexts of a request are its own, its challenges differ, it expires at some
time and its credentials are public ids. -/
structure Bound (request : VerifiedBrokerRequest) : Prop where
  context : ∀ decision,
    BoundContext request decision (request.webauthn.contexts.get decision)
  challenges : request.webauthn.contexts.approve.webauthnChallenge ≠
    request.webauthn.contexts.deny.webauthnChallenge
  expires : ∃ time, request.expiresAtUnixMs = .finite time
  credentials : ∀ credential ∈ request.webauthn.credentials,
    isPublicId credential.id = true

theorem validateContext_eq_ok {claims : BrokerRequestClaims} {decision : Decision}
    {result : Unit} (h : validateContext claims decision = .ok result) :
    ∃ context, claims.webauthn.contexts.get decision = some context ∧
      context.decision = decision ∧ context.Binds claims := by
  simp only [validateContext, bind_eq_ok_iff, orFault_eq_ok_iff, rejectIf_eq_ok_iff,
    not_not] at h
  obtain ⟨context, hContext, _, hDecision, _, hBinds, -⟩ := h
  exact ⟨context, hContext, hDecision, hBinds⟩

/-- Every request that is verified, by whatever verifier, is bound. -/
theorem verifyBrokerEnvelope_bound [UrlParser] {envelope : Bytes}
    {verifier : BrokerEnvelopeVerifier} {request : VerifiedBrokerRequest}
    (h : verifyBrokerEnvelope envelope verifier = .ok request) : Bound request := by
  simp only [verifyBrokerEnvelope, freezeRequest, bind_eq_ok_iff, mapError_eq_ok_iff,
    orFault_eq_ok_iff, pure_eq_ok, Except.ok.injEq] at h
  obtain ⟨_, -, claims, -, _, hClaims, approve, hApprove, deny, hDeny, rfl⟩ := h
  simp only [validateClaims, requireSafeInteger, bind_eq_ok_iff, rejectIf_eq_ok_iff] at hClaims
  obtain ⟨_, -, _, -, _, -, _, -, _, -, _, -, _, hExpiry, _, -, _, -, hWebAuthn⟩ := hClaims
  simp only [validateWebAuthn, validateDistinct, bind_eq_ok_iff, rejectIf_eq_ok_iff,
    List.forM_eq_forM, List.forM_cons, List.forM_nil, orFault_eq_ok_iff, hApprove, hDeny,
    Option.some.injEq] at hWebAuthn
  obtain ⟨_, -, _, -, _, hCredentials, _, ⟨_, hFirst, _, hSecond, -⟩, _, rfl, _, rfl,
    hDistinct⟩ := hWebAuthn
  have hBound : ∀ decision context,
      validateContext claims decision = .ok () →
      claims.webauthn.contexts.get decision = some context →
      context.decision = decision ∧ context.requestId = claims.requestId ∧
        context.requestDigest = claims.requestDigest ∧
        context.expiresAtUnixMs = claims.expiresAtUnixMs := by
    intro decision context hValid hContext
    obtain ⟨found, hFound, hDecision, hId, -, -, -, hExpires, hDigest⟩ :=
      validateContext_eq_ok hValid
    rw [hContext, Option.some.injEq] at hFound
    subst hFound
    exact ⟨hDecision, hId, equalBytes_eq_true_iff.mp hDigest, strictEq_eq_true hExpires⟩
  refine ⟨?_, ?_, ?_, validateCredentials_eq_ok hCredentials⟩
  · intro decision
    cases decision with
    | approve =>
        obtain ⟨h1, h2, h3, h4⟩ := hBound .approve approve hFirst hApprove
        exact ⟨h1, h2, h3, h4⟩
    | deny =>
        obtain ⟨h1, h2, h3, h4⟩ := hBound .deny deny hSecond hDeny
        exact ⟨h1, h2, h3, h4⟩
  · intro hSame
    exact hDistinct (.inr (equalBytes_eq_true_iff.mpr hSame))
  · obtain ⟨hSafe, -⟩ := not_or.mp hExpiry
    show ∃ time, claims.expiresAtUnixMs = .finite time
    cases hTime : claims.expiresAtUnixMs with
    | nan => simp [hTime, Double.isSafeInteger] at hSafe
    | infinity negative => simp [hTime, Double.isSafeInteger] at hSafe
    | finite time => exact ⟨time, rfl⟩

end Web
end RootPermit
