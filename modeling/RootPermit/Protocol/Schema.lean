import Mathlib.Data.List.AList
import RootPermit.Protocol.Digest

/-!
# The nine v1 message schemas

This module embeds `rp-protocol/src/schema.rs`.  A message is an integer-keyed
CBOR map.  `fields` turns such a map into a table, and the readers below take
fields out of that table one after the other, in the order of the source, so
that the first fault is the one reported.

The five entry points of a message (`to_cbor`, `from_cbor`, `validate`,
`canonical_bytes`, `decode`) have the same shape in every schema; what a schema
contributes is its list of entries and its reader.
-/

namespace RootPermit
namespace Protocol

open Foundation

/-- The only protocol version implemented. -/
def VERSION : UInt64 := 1

abbrev RequestId := ByteArr 16
abbrev ReceiptId := ByteArr 16
abbrev ServiceEventId := ByteArr 16
abbrev DeviceId := ByteArr 16
abbrev BootId := ByteArr 16
abbrev PolicyId := ByteArr 16
abbrev Nonce := ByteArr 32

inductive IdentifierError where
  | wrongLength (name : String) (expected actual : Nat)
  deriving DecidableEq, Repr

inductive SchemaError where
  | cbor (fault : DecodeError)
  | identifier (fault : IdentifierError)
  | encode (fault : EncodeError)
  | protocolMismatch (actual : UInt64)
  | missingField (field : UInt64)
  | unknownField (field : UInt64)
  | wrongType (field : UInt64)
  | invalidField (field : UInt64)
  | rootNotMap
  deriving DecidableEq, Repr

/-! ### Writing fields -/

def field (key : UInt64) (value : CborValue) : CborValue × CborValue :=
  (.unsigned key, value)

/-- An integer-keyed map with these entries, in this order. -/
def record (table : List (UInt64 × CborValue)) : CborValue :=
  .map (table.map fun entry => field entry.1 entry.2)

def signed (value : Int64) : CborValue :=
  if value ≥ 0 then .unsigned (UInt64.ofNat value.toInt.natAbs)
  else .negative value

/-- The entry pushed for an optional field. -/
def optionalEntry (key : UInt64) (value : Option CborValue) :
    List (UInt64 × CborValue) :=
  match value with
  | some value => [(key, value)]
  | none => []

/-! ### Reading fields -/

/-- The fields of a message that have not been taken yet. -/
abbrev Fields := AList fun _ : UInt64 => CborValue

def insertFields : List (CborValue × CborValue) → Fields → Except SchemaError Fields
  | [], fields => .ok fields
  | (.unsigned key, value) :: rest, fields => do
      rejectIf (key ∈ fields) (.invalidField key)
      insertFields rest (fields.insert key value)
  | _ :: _, _ => .error .rootNotMap

def fields (value : CborValue) : Except SchemaError Fields :=
  match value with
  | .map entries => insertFields entries ∅
  | _ => .error .rootNotMap

/-- The table iterates in the order of its keys, so the least unknown one is
reported. -/
def rejectUnknown (fields : Fields) (known : List UInt64) :
    Except SchemaError Unit :=
  match (fields.keys.insertionSort (· ≤ ·)).find? fun key => !known.contains key with
  | some key => .error (.unknownField key)
  | none => .ok ()

/-- A computation that takes fields out of a message. -/
abbrev FieldReader := StateT Fields (Except SchemaError)

def required (field : UInt64) : FieldReader CborValue := fun fields =>
  match fields.lookup field with
  | some value => .ok (value, fields.erase field)
  | none => .error (.missingField field)

/-- Takes a field and converts its value. -/
def requiredAs {α : Type} (field : UInt64)
    (convert : CborValue → Except SchemaError α) : FieldReader α := fun fields => do
  let (value, fields) ← required field fields
  let converted ← convert value
  return (converted, fields)

/-- Runs a reader only when its field is present. -/
def optionalField {α : Type} (field : UInt64) (read : FieldReader α) :
    FieldReader (Option α) := fun fields =>
  if field ∈ fields then
    (read fields).map fun (value, fields) => (some value, fields)
  else .ok (none, fields)

def asUnsigned (field : UInt64) : CborValue → Except SchemaError UInt64
  | .unsigned value => .ok value
  | _ => .error (.wrongType field)

def asSigned (field : UInt64) : CborValue → Except SchemaError Int64
  | .unsigned value => orFault (.invalidField field) (toI64? value.toNat)
  | .negative value => .ok value
  | _ => .error (.wrongType field)

def asBoundedBytes (field : UInt64) (minimum maximum : Nat) :
    CborValue → Except SchemaError Bytes
  | .bytes value =>
      if minimum ≤ value.length ∧ value.length ≤ maximum then .ok value
      else .error (.invalidField field)
  | _ => .error (.wrongType field)

def asArray (field : UInt64) : CborValue → Except SchemaError (List CborValue)
  | .array values => .ok values
  | _ => .error (.wrongType field)

/-- The patterns `CborValue::Map(_)` of the source. -/
def CborValue.isMap : CborValue → Bool
  | .map _ => true
  | _ => false

def asMap (field : UInt64) (value : CborValue) :
    Except SchemaError CborValue := do
  rejectIf (!value.isMap) (.wrongType field)
  return value

def asText (field : UInt64) (maximum : Nat) :
    CborValue → Except SchemaError String
  | .text value =>
      if (utf8 value).length ≤ maximum then .ok value
      else .error (.invalidField field)
  | _ => .error (.wrongType field)

def nonEmpty (value : String) (field : UInt64) : Except SchemaError String := do
  rejectIf (utf8 value = []) (.invalidField field)
  return value

def requiredUnsigned (field : UInt64) : FieldReader UInt64 :=
  requiredAs field (asUnsigned field)

def requiredSigned (field : UInt64) : FieldReader Int64 :=
  requiredAs field (asSigned field)

def requiredBoundedBytes (field : UInt64) (minimum maximum : Nat) :
    FieldReader Bytes :=
  requiredAs field (asBoundedBytes field minimum maximum)

def optionalBoundedBytes (field : UInt64) (minimum maximum : Nat) :
    FieldReader (Option Bytes) :=
  optionalField field (requiredBoundedBytes field minimum maximum)

def requiredArray (field : UInt64) : FieldReader (List CborValue) :=
  requiredAs field (asArray field)

def requiredMap (field : UInt64) : FieldReader CborValue :=
  requiredAs field (asMap field)

/-- `required_bytes` with the field's length, then the conversion to an array. -/
def asDigest (field : UInt64) (value : CborValue) : Except SchemaError Digest := do
  let value ← asBoundedBytes field 32 32 value
  orFault (.invalidField field) (ByteArr.ofBytes? 32 value)

def digestField (field : UInt64) : FieldReader Digest :=
  requiredAs field (asDigest field)

def optionalDigest (field : UInt64) : FieldReader (Option Digest) :=
  optionalField field (digestField field)

def requiredText (field : UInt64) (maximum : Nat) : FieldReader String :=
  requiredAs field (asText field maximum)

def optionalText (field : UInt64) (maximum : Nat) :
    FieldReader (Option String) :=
  optionalField field (requiredText field maximum)

/-- `non_empty` of a required text. -/
def asNonEmptyText (field : UInt64) (maximum : Nat) (value : CborValue) :
    Except SchemaError String := do
  let value ← asText field maximum value
  nonEmpty value field

def requiredNonEmptyText (field : UInt64) (maximum : Nat) : FieldReader String :=
  requiredAs field (asNonEmptyText field maximum)

/-- `required_bytes` with an identifier's length, then its `try_from`. -/
def asIdentifier (name : String) (length : Nat) (field : UInt64)
    (value : CborValue) : Except SchemaError (ByteArr length) := do
  let value ← asBoundedBytes field length length value
  orFault (.identifier (.wrongLength name length value.length))
    (ByteArr.ofBytes? length value)

/-- An identifier newtype read from a field. -/
def identifier (name : String) (length : Nat) (field : UInt64) :
    FieldReader (ByteArr length) :=
  requiredAs field (asIdentifier name length field)

def asVersion (value : CborValue) : Except SchemaError Unit := do
  let actual ← asUnsigned 1 value
  rejectIf (actual ≠ VERSION) (.protocolMismatch actual)

def version : FieldReader Unit :=
  requiredAs 1 asVersion

/-! ### The entry points shared by the schemas -/

section EntryPoints

variable {T : Type}

/-- `from_cbor` up to the checks that follow the reads. -/
def readMessage (known : List UInt64) (read : FieldReader T)
    (value : CborValue) : Except SchemaError T := do
  let fields ← fields value
  rejectUnknown fields known
  let (message, _) ← read fields
  return message

/-- `validate`: the message goes through the schema path used for inbound
bytes, and is then checked. -/
def validateWith (toCbor : T → CborValue)
    (fromCbor : CborValue → Except SchemaError T)
    (check : T → Except SchemaError Unit) (message : T) :
    Except SchemaError Unit := do
  let validated ← fromCbor (toCbor message)
  check validated

def canonicalBytesWith (toCbor : T → CborValue)
    (validate : T → Except SchemaError Unit) (message : T) :
    Except SchemaError Bytes := do
  validate message
  (encode (toCbor message)).mapError .encode

def digestWith [Cryptography] (domain : Domain) (toCbor : T → CborValue)
    (validate : T → Except SchemaError Unit) (message : T) :
    Except SchemaError Digest := do
  validate message
  (digestCbor domain (toCbor message)).mapError .encode

/-- `decode` of the schemas that leave validation to the caller. -/
def decodeWith (fromCbor : CborValue → Except SchemaError T) (input : Bytes) :
    Except SchemaError T := do
  let value ← (decode input).mapError .cbor
  fromCbor value

/-- `decode` of the schemas that validate what they have read. -/
def decodeValidated (fromCbor : CborValue → Except SchemaError T)
    (validate : T → Except SchemaError Unit) (input : Bytes) :
    Except SchemaError T := do
  let message ← decodeWith fromCbor input
  validate message
  return message

/-- The check of a schema whose reader already checks everything. -/
def noFurtherCheck (_ : T) : Except SchemaError Unit := .ok ()

end EntryPoints

/-! ### Operations and decisions -/

inductive Operation where
  | packageInstall
  deriving DecidableEq, Repr

def Operation.fromCode (code : UInt64) : Except SchemaError Operation :=
  if code = 1 then .ok .packageInstall else .error (.invalidField 12)

def Operation.code : Operation → UInt64
  | .packageInstall => 1

def asOperation (value : CborValue) : Except SchemaError Operation := do
  let code ← asUnsigned 12 value
  Operation.fromCode code

def isAsciiLowercase (byte : UInt8) : Bool :=
  decide (0x61 ≤ byte ∧ byte ≤ 0x7a)

def isAsciiDigit (byte : UInt8) : Bool :=
  decide (0x30 ≤ byte ∧ byte ≤ 0x39)

/-- The bytes after the first one: letters, digits, `+`, `.` and `-`. -/
def isPackageNameByte (byte : UInt8) : Bool :=
  isAsciiLowercase byte || isAsciiDigit byte || byte == 0x2b || byte == 0x2e ||
    byte == 0x2d

def validPackageName (packageName : String) : Bool :=
  match utf8 packageName with
  | [] => false
  | first :: rest =>
      decide (rest.length + 1 ≤ 255) && isAsciiLowercase first &&
        rest.all isPackageNameByte

structure OperationInput where
  packageName : String
  deriving DecidableEq, Repr

def OperationInput.packageInstall (packageName : String) :
    Except SchemaError OperationInput := do
  rejectIf (!validPackageName packageName) (.invalidField 13)
  return { packageName }

def OperationInput.entries (input : OperationInput) :
    List (UInt64 × CborValue) :=
  [(1, .text input.packageName)]

def OperationInput.toCbor (input : OperationInput) : CborValue :=
  record input.entries

/-- The nested map carries no version. -/
def OperationInput.read : FieldReader OperationInput := do
  let packageName ← requiredText 1 255
  return { packageName }

def OperationInput.fromCbor (value : CborValue) :
    Except SchemaError OperationInput := do
  let input ← readMessage [1] OperationInput.read value
  rejectIf (!validPackageName input.packageName) (.invalidField 13)
  return input

inductive Decision where
  | approve
  | deny
  deriving DecidableEq, Repr

def Decision.fromCode (code : UInt64) : Except SchemaError Decision :=
  if code = 1 then .ok .approve
  else if code = 2 then .ok .deny
  else .error (.invalidField 10)

def Decision.code : Decision → UInt64
  | .approve => 1
  | .deny => 2

def asDecision (value : CborValue) : Except SchemaError Decision := do
  let code ← asUnsigned 10 value
  Decision.fromCode code

/-! ### Request -/

structure Request where
  requestId : RequestId
  deviceId : DeviceId
  brokerEpoch : UInt64
  generation : UInt64
  createdUtc : Int64
  expiresUtc : Int64
  bootId : BootId
  deadlineMonoNs : UInt64
  nonce : Nonce
  requesterUid : UInt64
  operation : Operation
  operationInput : OperationInput
  policyId : PolicyId
  policyDigest : Digest
  planDigest : Digest
  frozenPlan : CborValue
  agentNote : Option String

namespace Request

def entries (request : Request) : List (UInt64 × CborValue) :=
  [(1, .unsigned VERSION),
    (2, .bytes request.requestId.val),
    (3, .bytes request.deviceId.val),
    (4, .unsigned request.brokerEpoch),
    (5, .unsigned request.generation),
    (6, signed request.createdUtc),
    (7, signed request.expiresUtc),
    (8, .bytes request.bootId.val),
    (9, .unsigned request.deadlineMonoNs),
    (10, .bytes request.nonce.val),
    (11, .unsigned request.requesterUid),
    (12, .unsigned request.operation.code),
    (13, request.operationInput.toCbor),
    (14, .bytes request.policyId.val),
    (15, .bytes request.policyDigest.val),
    (16, .bytes request.planDigest.val),
    (17, request.frozenPlan)] ++
  optionalEntry 18 (request.agentNote.map .text)

def toCbor (request : Request) : CborValue :=
  record request.entries

def read : FieldReader Request := do
  version
  let requestId ← identifier "request ID" 16 2
  let deviceId ← identifier "device ID" 16 3
  let brokerEpoch ← requiredUnsigned 4
  let generation ← requiredUnsigned 5
  let createdUtc ← requiredSigned 6
  let expiresUtc ← requiredSigned 7
  let bootId ← identifier "boot ID" 16 8
  let deadlineMonoNs ← requiredUnsigned 9
  let nonce ← identifier "approval nonce" 32 10
  let requesterUid ← requiredUnsigned 11
  let operation ← requiredAs 12 asOperation
  let operationInput ← requiredAs 13 OperationInput.fromCbor
  let policyId ← identifier "policy ID" 16 14
  let policyDigest ← digestField 15
  let planDigest ← digestField 16
  let frozenPlan ← required 17
  let agentNote ← optionalText 18 512
  return { requestId, deviceId, brokerEpoch, generation, createdUtc, expiresUtc,
           bootId, deadlineMonoNs, nonce, requesterUid, operation,
           operationInput, policyId, policyDigest, planDigest, frozenPlan,
           agentNote }

def known : List UInt64 :=
  [1, 2, 3, 4, 5, 6, 7, 8, 9, 10, 11, 12, 13, 14, 15, 16, 17, 18]

def fromCbor (value : CborValue) : Except SchemaError Request := do
  let request ← readMessage known read value
  rejectIf (request.expiresUtc < request.createdUtc) (.invalidField 7)
  rejectIf (!request.frozenPlan.isMap) (.wrongType 17)
  return request

def checkFrozenPlan (request : Request) : Except SchemaError Unit :=
  rejectIf (!request.frozenPlan.isMap) (.wrongType 17)

def validate : Request → Except SchemaError Unit :=
  validateWith toCbor fromCbor checkFrozenPlan

def canonicalBytes : Request → Except SchemaError Bytes :=
  canonicalBytesWith toCbor validate

def digest [Cryptography] : Request → Except SchemaError Digest :=
  digestWith .request toCbor validate

def decode : Bytes → Except SchemaError Request :=
  decodeWith fromCbor

end Request

/-! ### ApprovalContext -/

structure ApprovalContext where
  requestId : RequestId
  deviceId : DeviceId
  brokerEpoch : UInt64
  requestDigest : Digest
  generation : UInt64
  nonce : Nonce
  rpId : String
  origin : String
  decision : Decision
  expiresUtc : Int64
  deriving DecidableEq, Repr

namespace ApprovalContext

def entries (context : ApprovalContext) : List (UInt64 × CborValue) :=
  [(1, .unsigned VERSION),
    (2, .bytes context.requestId.val),
    (3, .bytes context.deviceId.val),
    (4, .unsigned context.brokerEpoch),
    (5, .bytes context.requestDigest.val),
    (6, .unsigned context.generation),
    (7, .bytes context.nonce.val),
    (8, .text context.rpId),
    (9, .text context.origin),
    (10, .unsigned context.decision.code),
    (11, signed context.expiresUtc)]

def toCbor (context : ApprovalContext) : CborValue :=
  record context.entries

def read : FieldReader ApprovalContext := do
  version
  let requestId ← identifier "request ID" 16 2
  let deviceId ← identifier "device ID" 16 3
  let brokerEpoch ← requiredUnsigned 4
  let requestDigest ← digestField 5
  let generation ← requiredUnsigned 6
  let nonce ← identifier "approval nonce" 32 7
  let rpId ← requiredNonEmptyText 8 253
  let origin ← requiredNonEmptyText 9 255
  let decision ← requiredAs 10 asDecision
  let expiresUtc ← requiredSigned 11
  return { requestId, deviceId, brokerEpoch, requestDigest, generation, nonce,
           rpId, origin, decision, expiresUtc }

def known : List UInt64 :=
  [1, 2, 3, 4, 5, 6, 7, 8, 9, 10, 11]

def fromCbor : CborValue → Except SchemaError ApprovalContext :=
  readMessage known read

def validate : ApprovalContext → Except SchemaError Unit :=
  validateWith toCbor fromCbor noFurtherCheck

def canonicalBytes : ApprovalContext → Except SchemaError Bytes :=
  canonicalBytesWith toCbor validate

def digest [Cryptography] : ApprovalContext → Except SchemaError Digest :=
  digestWith .decision toCbor validate

def webauthnChallenge [Cryptography] :
    ApprovalContext → Except SchemaError Digest :=
  digestWith .webAuthnChallenge toCbor validate

def decode : Bytes → Except SchemaError ApprovalContext :=
  decodeWith fromCbor

end ApprovalContext

/-! ### DecisionSubmission -/

structure DecisionSubmission where
  approvalContext : ApprovalContext
  credentialId : Bytes
  authenticatorData : Bytes
  clientDataJson : Bytes
  signature : Bytes
  userHandle : Option Bytes
  deriving DecidableEq, Repr

namespace DecisionSubmission

def entries (submission : DecisionSubmission) : List (UInt64 × CborValue) :=
  [(1, .unsigned VERSION),
    (2, submission.approvalContext.toCbor),
    (3, .bytes submission.credentialId),
    (4, .bytes submission.authenticatorData),
    (5, .bytes submission.clientDataJson),
    (6, .bytes submission.signature)] ++
  optionalEntry 7 (submission.userHandle.map .bytes)

def toCbor (submission : DecisionSubmission) : CborValue :=
  record submission.entries

def read : FieldReader DecisionSubmission := do
  version
  let approvalContext ← requiredAs 2 ApprovalContext.fromCbor
  let credentialId ← requiredBoundedBytes 3 1 1024
  let authenticatorData ← requiredBoundedBytes 4 1 512
  let clientDataJson ← requiredBoundedBytes 5 1 4096
  let signature ← requiredBoundedBytes 6 1 512
  let userHandle ← optionalBoundedBytes 7 0 256
  return { approvalContext, credentialId, authenticatorData, clientDataJson,
           signature, userHandle }

def known : List UInt64 :=
  [1, 2, 3, 4, 5, 6, 7]

def fromCbor : CborValue → Except SchemaError DecisionSubmission :=
  readMessage known read

def validate : DecisionSubmission → Except SchemaError Unit :=
  validateWith toCbor fromCbor noFurtherCheck

def canonicalBytes : DecisionSubmission → Except SchemaError Bytes :=
  canonicalBytesWith toCbor validate

def decode : Bytes → Except SchemaError DecisionSubmission :=
  decodeWith fromCbor

end DecisionSubmission

/-! ### PlanManifest -/

structure PlanManifest where
  planDigest : Digest
  inputs : List CborValue
  actionGraph : CborValue
  policyDigest : Digest
  createdUtc : Int64
  toolchain : CborValue
  prestateObservation : CborValue

namespace PlanManifest

def entries (manifest : PlanManifest) : List (UInt64 × CborValue) :=
  [(1, .unsigned VERSION),
    (2, .bytes manifest.planDigest.val),
    (3, .array manifest.inputs),
    (4, manifest.actionGraph),
    (5, .bytes manifest.policyDigest.val),
    (6, signed manifest.createdUtc),
    (7, manifest.toolchain),
    (8, manifest.prestateObservation)]

def toCbor (manifest : PlanManifest) : CborValue :=
  record manifest.entries

def read : FieldReader PlanManifest := do
  version
  let planDigest ← digestField 2
  let inputs ← requiredArray 3
  let actionGraph ← requiredMap 4
  let policyDigest ← digestField 5
  let createdUtc ← requiredSigned 6
  let toolchain ← requiredMap 7
  let prestateObservation ← requiredMap 8
  return { planDigest, inputs, actionGraph, policyDigest, createdUtc, toolchain,
           prestateObservation }

def known : List UInt64 :=
  [1, 2, 3, 4, 5, 6, 7, 8]

def fromCbor : CborValue → Except SchemaError PlanManifest :=
  readMessage known read

def validate : PlanManifest → Except SchemaError Unit :=
  validateWith toCbor fromCbor noFurtherCheck

def canonicalBytes : PlanManifest → Except SchemaError Bytes :=
  canonicalBytesWith toCbor validate

def digest [Cryptography] : PlanManifest → Except SchemaError Digest :=
  digestWith .aptPlan toCbor validate

def decode : Bytes → Except SchemaError PlanManifest :=
  decodeValidated fromCbor validate

end PlanManifest

/-! ### LifecycleEvent -/

structure LifecycleEvent where
  requestId : RequestId
  sequence : UInt64
  previousEventDigest : Option Digest
  requestDigest : Digest
  brokerEpoch : UInt64
  transition : UInt64
  occurredUtc : Int64
  detailCode : UInt64
  detailDigest : Option Digest
  deriving DecidableEq, Repr

namespace LifecycleEvent

/-- Field 4 is pushed after field 9; the encoder puts it in its place. -/
def entries (event : LifecycleEvent) : List (UInt64 × CborValue) :=
  [(1, .unsigned VERSION),
    (2, .bytes event.requestId.val),
    (3, .unsigned event.sequence),
    (5, .bytes event.requestDigest.val),
    (6, .unsigned event.brokerEpoch),
    (7, .unsigned event.transition),
    (8, signed event.occurredUtc),
    (9, .unsigned event.detailCode)] ++
  optionalEntry 4 (event.previousEventDigest.map fun digest => .bytes digest.val) ++
  optionalEntry 10 (event.detailDigest.map fun digest => .bytes digest.val)

def toCbor (event : LifecycleEvent) : CborValue :=
  record event.entries

def read : FieldReader LifecycleEvent := do
  version
  let requestId ← identifier "request ID" 16 2
  let sequence ← requiredUnsigned 3
  let previousEventDigest ← optionalDigest 4
  let requestDigest ← digestField 5
  let brokerEpoch ← requiredUnsigned 6
  let transition ← requiredUnsigned 7
  let occurredUtc ← requiredSigned 8
  let detailCode ← requiredUnsigned 9
  let detailDigest ← optionalDigest 10
  return { requestId, sequence, previousEventDigest, requestDigest, brokerEpoch,
           transition, occurredUtc, detailCode, detailDigest }

def known : List UInt64 :=
  [1, 2, 3, 4, 5, 6, 7, 8, 9, 10]

def fromCbor : CborValue → Except SchemaError LifecycleEvent :=
  readMessage known read

/-- The previous digest is absent exactly at sequence zero. -/
def checkPrevious (decoded : LifecycleEvent) : Except SchemaError Unit := do
  rejectIf (decoded.sequence = 0 ∧ decoded.previousEventDigest.isSome)
    (.invalidField 4)
  rejectIf (decoded.sequence ≠ 0 ∧ decoded.previousEventDigest.isNone)
    (.missingField 4)

def validate : LifecycleEvent → Except SchemaError Unit :=
  validateWith toCbor fromCbor checkPrevious

def canonicalBytes : LifecycleEvent → Except SchemaError Bytes :=
  canonicalBytesWith toCbor validate

def decode : Bytes → Except SchemaError LifecycleEvent :=
  decodeValidated fromCbor validate

end LifecycleEvent

/-! ### Receipt -/

structure Receipt where
  receiptId : ReceiptId
  requestId : RequestId
  requestDigest : Digest
  planDigest : Digest
  terminalState : UInt64
  authorizationEvidence : List CborValue
  prestateEvidence : CborValue
  executionEvidence : CborValue
  createdUtc : Int64
  completedUtc : Int64
  brokerEpoch : UInt64

namespace Receipt

def entries (receipt : Receipt) : List (UInt64 × CborValue) :=
  [(1, .unsigned VERSION),
    (2, .bytes receipt.receiptId.val),
    (3, .bytes receipt.requestId.val),
    (4, .bytes receipt.requestDigest.val),
    (5, .bytes receipt.planDigest.val),
    (6, .unsigned receipt.terminalState),
    (7, .array receipt.authorizationEvidence),
    (8, receipt.prestateEvidence),
    (9, receipt.executionEvidence),
    (10, signed receipt.createdUtc),
    (11, signed receipt.completedUtc),
    (12, .unsigned receipt.brokerEpoch)]

def toCbor (receipt : Receipt) : CborValue :=
  record receipt.entries

def read : FieldReader Receipt := do
  version
  let receiptId ← identifier "receipt ID" 16 2
  let requestId ← identifier "request ID" 16 3
  let requestDigest ← digestField 4
  let planDigest ← digestField 5
  let terminalState ← requiredUnsigned 6
  let authorizationEvidence ← requiredArray 7
  let prestateEvidence ← requiredMap 8
  let executionEvidence ← requiredMap 9
  let createdUtc ← requiredSigned 10
  let completedUtc ← requiredSigned 11
  let brokerEpoch ← requiredUnsigned 12
  return { receiptId, requestId, requestDigest, planDigest, terminalState,
           authorizationEvidence, prestateEvidence, executionEvidence,
           createdUtc, completedUtc, brokerEpoch }

def known : List UInt64 :=
  [1, 2, 3, 4, 5, 6, 7, 8, 9, 10, 11, 12]

def fromCbor : CborValue → Except SchemaError Receipt :=
  readMessage known read

def checkTimes (receipt : Receipt) : Except SchemaError Unit :=
  rejectIf (receipt.completedUtc < receipt.createdUtc) (.invalidField 11)

def validate : Receipt → Except SchemaError Unit :=
  validateWith toCbor fromCbor checkTimes

def canonicalBytes : Receipt → Except SchemaError Bytes :=
  canonicalBytesWith toCbor validate

def digest [Cryptography] : Receipt → Except SchemaError Digest :=
  digestWith .receipt toCbor validate

def decode : Bytes → Except SchemaError Receipt :=
  decodeValidated fromCbor validate

end Receipt

/-! ### EnrollmentStatement -/

structure EnrollmentStatement where
  tenantSubjectDigest : Digest
  deviceId : DeviceId
  brokerPubkey : Digest
  credentialSet : List CborValue
  pairingNonce : Digest
  comparisonDigest : Digest
  rpId : String
  origin : String
  nextGeneration : UInt64
  expiresUtc : Int64

namespace EnrollmentStatement

def entries (statement : EnrollmentStatement) : List (UInt64 × CborValue) :=
  [(1, .unsigned VERSION),
    (2, .bytes statement.tenantSubjectDigest.val),
    (3, .bytes statement.deviceId.val),
    (4, .bytes statement.brokerPubkey.val),
    (5, .array statement.credentialSet),
    (6, .bytes statement.pairingNonce.val),
    (7, .bytes statement.comparisonDigest.val),
    (8, .text statement.rpId),
    (9, .text statement.origin),
    (10, .unsigned statement.nextGeneration),
    (11, signed statement.expiresUtc)]

def toCbor (statement : EnrollmentStatement) : CborValue :=
  record statement.entries

def read : FieldReader EnrollmentStatement := do
  version
  let tenantSubjectDigest ← digestField 2
  let deviceId ← identifier "device ID" 16 3
  let brokerPubkey ← digestField 4
  let credentialSet ← requiredArray 5
  let pairingNonce ← digestField 6
  let comparisonDigest ← digestField 7
  let rpId ← requiredNonEmptyText 8 253
  let origin ← requiredNonEmptyText 9 255
  let nextGeneration ← requiredUnsigned 10
  let expiresUtc ← requiredSigned 11
  return { tenantSubjectDigest, deviceId, brokerPubkey, credentialSet,
           pairingNonce, comparisonDigest, rpId, origin, nextGeneration,
           expiresUtc }

def known : List UInt64 :=
  [1, 2, 3, 4, 5, 6, 7, 8, 9, 10, 11]

def fromCbor : CborValue → Except SchemaError EnrollmentStatement :=
  readMessage known read

def validate : EnrollmentStatement → Except SchemaError Unit :=
  validateWith toCbor fromCbor noFurtherCheck

def canonicalBytes : EnrollmentStatement → Except SchemaError Bytes :=
  canonicalBytesWith toCbor validate

def digest [Cryptography] : EnrollmentStatement → Except SchemaError Digest :=
  digestWith .enrollment toCbor validate

def decode : Bytes → Except SchemaError EnrollmentStatement :=
  decodeValidated fromCbor validate

end EnrollmentStatement

/-! ### ServiceKeyset -/

structure ServiceKeyset where
  keysetVersion : UInt64
  issuedUtc : Int64
  keys : List CborValue
  rootKid : Bytes
  expiresUtc : Int64

namespace ServiceKeyset

def entries (keyset : ServiceKeyset) : List (UInt64 × CborValue) :=
  [(1, .unsigned VERSION),
    (2, .unsigned keyset.keysetVersion),
    (3, signed keyset.issuedUtc),
    (4, .array keyset.keys),
    (5, .bytes keyset.rootKid),
    (6, signed keyset.expiresUtc)]

def toCbor (keyset : ServiceKeyset) : CborValue :=
  record keyset.entries

def read : FieldReader ServiceKeyset := do
  version
  let keysetVersion ← requiredUnsigned 2
  let issuedUtc ← requiredSigned 3
  let keys ← requiredArray 4
  let rootKid ← requiredBoundedBytes 5 8 32
  let expiresUtc ← requiredSigned 6
  return { keysetVersion, issuedUtc, keys, rootKid, expiresUtc }

def known : List UInt64 :=
  [1, 2, 3, 4, 5, 6]

def fromCbor : CborValue → Except SchemaError ServiceKeyset :=
  readMessage known read

def checkValidity (keyset : ServiceKeyset) : Except SchemaError Unit :=
  rejectIf (keyset.expiresUtc ≤ keyset.issuedUtc) (.invalidField 6)

def validate : ServiceKeyset → Except SchemaError Unit :=
  validateWith toCbor fromCbor checkValidity

def canonicalBytes : ServiceKeyset → Except SchemaError Bytes :=
  canonicalBytesWith toCbor validate

def digest [Cryptography] : ServiceKeyset → Except SchemaError Digest :=
  digestWith .serviceKeyset toCbor validate

def decode : Bytes → Except SchemaError ServiceKeyset :=
  decodeValidated fromCbor validate

end ServiceKeyset

/-! ### RevocationEvent -/

structure RevocationEvent where
  deviceId : DeviceId
  credentialId : Bytes
  cutoffUtc : Int64
  serviceEventId : ServiceEventId
  generationAtIssue : UInt64
  reasonCode : UInt64
  deriving DecidableEq, Repr

namespace RevocationEvent

def entries (event : RevocationEvent) : List (UInt64 × CborValue) :=
  [(1, .unsigned VERSION),
    (2, .bytes event.deviceId.val),
    (3, .bytes event.credentialId),
    (4, signed event.cutoffUtc),
    (5, .bytes event.serviceEventId.val),
    (6, .unsigned event.generationAtIssue),
    (7, .unsigned event.reasonCode)]

def toCbor (event : RevocationEvent) : CborValue :=
  record event.entries

def read : FieldReader RevocationEvent := do
  version
  let deviceId ← identifier "device ID" 16 2
  let credentialId ← requiredBoundedBytes 3 1 1024
  let cutoffUtc ← requiredSigned 4
  let serviceEventId ← identifier "service event ID" 16 5
  let generationAtIssue ← requiredUnsigned 6
  let reasonCode ← requiredUnsigned 7
  return { deviceId, credentialId, cutoffUtc, serviceEventId, generationAtIssue,
           reasonCode }

def known : List UInt64 :=
  [1, 2, 3, 4, 5, 6, 7]

def fromCbor : CborValue → Except SchemaError RevocationEvent :=
  readMessage known read

def validate : RevocationEvent → Except SchemaError Unit :=
  validateWith toCbor fromCbor noFurtherCheck

def canonicalBytes : RevocationEvent → Except SchemaError Bytes :=
  canonicalBytesWith toCbor validate

def digest [Cryptography] : RevocationEvent → Except SchemaError Digest :=
  digestWith .revocation toCbor validate

def decode : Bytes → Except SchemaError RevocationEvent :=
  decodeWith fromCbor

end RevocationEvent

end Protocol
end RootPermit
