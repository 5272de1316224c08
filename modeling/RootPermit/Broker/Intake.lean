import RootPermit.Foundation.Base64Url
import RootPermit.Protocol.Schema

/-!
# Typed intake of broker requests

This module embeds the input types of `rp-broker-core/src/lib.rs`: identifiers,
operation keys and package names are texts that were parsed once, and carry what
their parser checked.
-/

namespace RootPermit
namespace Broker

open Foundation Protocol

/-- A requester UID authenticated by the kernel. -/
structure RequesterUid where
  asU32 : UInt32
  deriving DecidableEq, Repr

inductive IntakeError where
  | invalidPublicId
  | invalidOperationKey
  | invalidPackageName
  deriving DecidableEq, Repr

def isAsciiUppercase (byte : UInt8) : Bool :=
  decide (0x41 ≤ byte ∧ byte ≤ 0x5a)

def isBase64url (byte : UInt8) : Bool :=
  isAsciiUppercase byte || isAsciiLowercase byte || isAsciiDigit byte ||
    byte == 0x5f || byte == 0x2d

/-- Shape of a public identifier: 22 base64url characters. -/
def isPublicId (value : String) : Bool :=
  decide ((utf8 value).length = 22) && (utf8 value).all isBase64url

/-- A public identifier that passed `PublicId::parse`. -/
structure PublicId where
  asStr : String
  parsed : isPublicId asStr = true
  deriving DecidableEq, Repr

namespace PublicId

def parse (value : String) : Except IntakeError PublicId :=
  if h : isPublicId value = true then .ok ⟨value, h⟩ else .error .invalidPublicId

/-- The 16 bytes of an identifier, when its text is their encoding.  The shape
alone does not guarantee it: the last character carries unused bits. -/
def bytes? (id : PublicId) : Option (ByteArr 16) :=
  (Base64Url.decode (utf8 id.asStr)).bind (ByteArr.ofBytes? 16)

theorem ext_iff' {first second : PublicId} :
    first = second ↔ first.asStr = second.asStr := by
  cases first
  cases second
  simp

theorem parse_eq_ok_iff {value : String} {id : PublicId} :
    PublicId.parse value = .ok id ↔ id.asStr = value := by
  unfold PublicId.parse
  by_cases hValue : isPublicId value = true
  · rw [dif_pos hValue, Except.ok.injEq, PublicId.ext_iff']
    exact eq_comm
  · rw [dif_neg hValue]
    constructor
    · intro h
      cases h
    · intro h
      exact absurd (h ▸ id.parsed) hValue

theorem length_utf8 (id : PublicId) : (utf8 id.asStr).length = 22 := by
  have hShape := id.parsed
  unfold isPublicId at hShape
  rw [Bool.and_eq_true] at hShape
  exact of_decide_eq_true hShape.1

theorem isBase64url_of_mem {id : PublicId} {byte : UInt8} (h : byte ∈ utf8 id.asStr) :
    isBase64url byte = true := by
  have hShape := id.parsed
  unfold isPublicId at hShape
  rw [Bool.and_eq_true, List.all_eq_true] at hShape
  exact hShape.2 byte h

end PublicId

def isOperationKey (value : String) : Bool :=
  decide (16 ≤ (utf8 value).length ∧ (utf8 value).length ≤ 128) &&
    (utf8 value).all isBase64url

structure OperationKey where
  asStr : String
  parsed : isOperationKey asStr = true
  deriving DecidableEq, Repr

def OperationKey.parse (value : String) : Except IntakeError OperationKey :=
  if h : isOperationKey value = true then .ok ⟨value, h⟩
  else .error .invalidOperationKey

/-- `is_package_character` admits the same bytes as the protocol crate's package
name check. -/
def isPackageName (value : String) : Bool :=
  match utf8 value with
  | [] => false
  | first :: rest =>
      decide (2 ≤ rest.length + 1 ∧ rest.length + 1 ≤ 64) &&
        (isAsciiLowercase first || isAsciiDigit first) &&
        rest.all isPackageNameByte

structure PackageName where
  asStr : String
  parsed : isPackageName asStr = true
  deriving DecidableEq, Repr

def PackageName.parse (value : String) : Except IntakeError PackageName :=
  if h : isPackageName value = true then .ok ⟨value, h⟩
  else .error .invalidPackageName

/-- A complete typed input to `package.install`. -/
structure SubmitPackageInstall where
  requestId : PublicId
  requesterUid : RequesterUid
  operationKey : OperationKey
  packageName : PackageName
  generation : UInt64
  deriving DecidableEq, Repr

inductive PolicyDecision where
  | allow
  | deny
  deriving DecidableEq, Repr

/-- Root-controlled policy consulted before a request becomes durable. -/
abbrev PackageInstallPolicy := RequesterUid → PackageName → PolicyDecision

/-- Broker-created values that are bound into a pending approval. -/
structure PendingRequestContext where
  createdUtc : Int64
  expiresUtc : Int64
  bootId : ByteArr 16
  deadlineMonoNs : UInt64
  nonce : ByteArr 32
  policyId : ByteArr 16
  policyDigest : Digest
  deriving DecidableEq, Repr

/-- The relying party of the root-owned broker configuration. -/
structure WebAuthnRelyingParty where
  rpId : String
  origin : String
  deriving DecidableEq, Repr

/-- Root-managed credential material. -/
structure CredentialPin where
  credentialId : Bytes
  publicKeyCose : Bytes
  coseAlgorithm : Int64
  deriving DecidableEq, Repr

/-- The projection of a frozen plan that is bound into a pending request. -/
structure FrozenPlan where
  packageName : PackageName
  manifestDigest : Digest
  planDigest : Digest
  actionCount : UInt32
  deriving DecidableEq, Repr

def FrozenPlan.toCbor (plan : FrozenPlan) : CborValue :=
  .map [(.unsigned 1, .text plan.packageName.asStr),
    (.unsigned 2, .bytes plan.manifestDigest.val),
    (.unsigned 3, .unsigned plan.actionCount.toUInt64)]

inductive PlannerError where
  | canonicalization
  | unavailable
  deriving DecidableEq, Repr

/-- The deterministic plan of the fake planner. -/
def FrozenPlan.fake [Cryptography] (packageName : PackageName)
    (manifestDigest : Digest) (actionCount : UInt32) :
    Except PlannerError FrozenPlan := do
  let view : CborValue :=
    .map [(.unsigned 1, .text packageName.asStr),
      (.unsigned 2, .bytes manifestDigest.val),
      (.unsigned 3, .unsigned actionCount.toUInt64)]
  let planDigest ←
    (digestCbor .aptPlan view).mapError fun _ => .canonicalization
  return { packageName, manifestDigest, planDigest, actionCount }

end Broker
end RootPermit
