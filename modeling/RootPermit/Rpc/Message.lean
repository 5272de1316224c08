import RootPermit.Protocol.SchemaFields

/-!
# Messages of the local broker RPC

This module embeds the schemas and the framing of `rp-broker-api/src/lib.rs`.  A
packet is a length prefix of four bytes followed by one integer-keyed CBOR map.
The three kinds of message share their first four fields; field 5 is the body of a
request or a response and the code of a failure, and only failures have more.

The readers take fields out of a table one after the other, as those of the
protocol schemas do, but report their own errors.
-/

namespace RootPermit
namespace Rpc

open Foundation Protocol

/-- The largest CBOR payload of a local packet. -/
def MAX_FRAME_PAYLOAD_BYTES : Nat := 65536

def FRAME_LENGTH_BYTES : Nat := 4

/-! ### Errors -/

inductive RpcError where
  | cbor (fault : DecodeError)
  | encode (fault : EncodeError)
  | protocolMismatch (actual : UInt64)
  | rootNotMap
  | missingField (field : UInt64)
  | unknownField (field : UInt64)
  | wrongType (field : UInt64)
  | invalidField (field : UInt64)
  | unknownMethod (value : UInt64)
  | invalidMessageKind (value : UInt64)
  | unknownErrorCode
  deriving DecidableEq, Repr

inductive FrameError where
  | tooShort
  | lengthMismatch (declared actual : Nat)
  | payloadTooLarge (limit : Nat)
  | rpc (fault : RpcError)
  deriving DecidableEq, Repr

/-! ### Methods, kinds and error codes -/

inductive Method where
  | submitPackageInstall
  | getRequest
  | listRequests
  | cancelRequest
  | getReceipt
  deriving DecidableEq, Repr

namespace Method

def code : Method → UInt64
  | .submitPackageInstall => 1
  | .getRequest => 2
  | .listRequests => 3
  | .cancelRequest => 4
  | .getReceipt => 5

def fromCode (value : UInt64) : Except RpcError Method :=
  match value with
  | 1 => .ok .submitPackageInstall
  | 2 => .ok .getRequest
  | 3 => .ok .listRequests
  | 4 => .ok .cancelRequest
  | 5 => .ok .getReceipt
  | _ => .error (.unknownMethod value)

end Method

/-- A transport-only correlation identifier. -/
structure CorrelationId where
  asBytes : ByteArr 16
  deriving DecidableEq, Repr

inductive MessageKind where
  | request
  | response
  | error
  deriving DecidableEq, Repr

namespace MessageKind

def code : MessageKind → UInt64
  | .request => 1
  | .response => 2
  | .error => 3

def fromCode (value : UInt64) : Except RpcError MessageKind :=
  match value with
  | 1 => .ok .request
  | 2 => .ok .response
  | 3 => .ok .error
  | _ => .error (.invalidMessageKind value)

end MessageKind

inductive ErrorCode where
  | invalidInput
  | notAllowed
  | busy
  | idempotencyConflict
  | approvalLocked
  | notFoundOrNotAuthorized
  | invalidCursor
  | cancellationTooLate
  | deviceNotUnpaired
  | temporarilyUnavailable
  | credentialLimitReached
  | unsafeLifecycleState
  | notRecoveryRequired
  | reconciliationNotProved
  | retentionProtected
  | protocolViolation
  | internal
  deriving DecidableEq, Repr

namespace ErrorCode

def text : ErrorCode → String
  | .invalidInput => "invalid_input"
  | .notAllowed => "not_allowed"
  | .busy => "busy"
  | .idempotencyConflict => "idempotency_conflict"
  | .approvalLocked => "approval_locked"
  | .notFoundOrNotAuthorized => "not_found_or_not_authorized"
  | .invalidCursor => "invalid_cursor"
  | .cancellationTooLate => "cancellation_too_late"
  | .deviceNotUnpaired => "device_not_unpaired"
  | .temporarilyUnavailable => "temporarily_unavailable"
  | .credentialLimitReached => "credential_limit_reached"
  | .unsafeLifecycleState => "unsafe_lifecycle_state"
  | .notRecoveryRequired => "not_recovery_required"
  | .reconciliationNotProved => "reconciliation_not_proved"
  | .retentionProtected => "retention_protected"
  | .protocolViolation => "protocol_violation"
  | .internal => "internal"

def parse (value : String) : Except RpcError ErrorCode :=
  match value with
  | "invalid_input" => .ok .invalidInput
  | "not_allowed" => .ok .notAllowed
  | "busy" => .ok .busy
  | "idempotency_conflict" => .ok .idempotencyConflict
  | "approval_locked" => .ok .approvalLocked
  | "not_found_or_not_authorized" => .ok .notFoundOrNotAuthorized
  | "invalid_cursor" => .ok .invalidCursor
  | "cancellation_too_late" => .ok .cancellationTooLate
  | "device_not_unpaired" => .ok .deviceNotUnpaired
  | "temporarily_unavailable" => .ok .temporarilyUnavailable
  | "credential_limit_reached" => .ok .credentialLimitReached
  | "unsafe_lifecycle_state" => .ok .unsafeLifecycleState
  | "not_recovery_required" => .ok .notRecoveryRequired
  | "reconciliation_not_proved" => .ok .reconciliationNotProved
  | "retention_protected" => .ok .retentionProtected
  | "protocol_violation" => .ok .protocolViolation
  | "internal" => .ok .internal
  | _ => .error .unknownErrorCode

end ErrorCode

/-! ### Reading fields -/

def insertFields : List (CborValue × CborValue) → Fields → Except RpcError Fields
  | [], fields => .ok fields
  | (.unsigned key, value) :: rest, fields => do
      -- A decoded map has no repeated key, but a value that was built may.
      rejectIf (key ∈ fields) (.invalidField key)
      insertFields rest (fields.insert key value)
  | _ :: _, _ => .error .rootNotMap

def fields (value : CborValue) : Except RpcError Fields :=
  match value with
  | .map entries => insertFields entries ∅
  | _ => .error .rootNotMap

/-- The table iterates in the order of its keys, so the least unknown one is
reported. -/
def rejectUnknown (fields : Fields) (known : List UInt64) : Except RpcError Unit :=
  match (fields.keys.insertionSort (· ≤ ·)).find? fun key => !known.contains key with
  | some key => .error (.unknownField key)
  | none => .ok ()

/-- A computation that takes fields out of a message. -/
abbrev FieldReader := StateT Fields (Except RpcError)

def required (field : UInt64) : FieldReader CborValue := fun fields =>
  match fields.lookup field with
  | some value => .ok (value, fields.erase field)
  | none => .error (.missingField field)

def asUnsigned (field : UInt64) : CborValue → Except RpcError UInt64
  | .unsigned value => .ok value
  | _ => .error (.wrongType field)

def asBytes (field : UInt64) (length : Nat) : CborValue → Except RpcError Bytes
  | .bytes value =>
      if value.length = length then .ok value else .error (.invalidField field)
  | _ => .error (.wrongType field)

def asText (field : UInt64) (maximum : Nat) : CborValue → Except RpcError String
  | .text value =>
      if (utf8 value).length ≤ maximum then .ok value
      else .error (.invalidField field)
  | _ => .error (.wrongType field)

def asBool (field : UInt64) : CborValue → Except RpcError Bool
  | .bool value => .ok value
  | _ => .error (.wrongType field)

/-- Takes a field and converts its value. -/
def requiredAs {α : Type} (field : UInt64)
    (convert : CborValue → Except RpcError α) : FieldReader α := fun fields => do
  let (value, fields) ← required field fields
  let converted ← convert value
  return (converted, fields)

/-- Reads a field without taking it. -/
def requiredUnsignedRef (fields : Fields) (field : UInt64) :
    Except RpcError UInt64 :=
  match fields.lookup field with
  | some value => asUnsigned field value
  | none => .error (.missingField field)

def requiredUnsigned (field : UInt64) : FieldReader UInt64 :=
  requiredAs field (asUnsigned field)

def requiredBytes (field : UInt64) (length : Nat) : FieldReader Bytes :=
  requiredAs field (asBytes field length)

def requiredText (field : UInt64) (maximum : Nat) : FieldReader String :=
  requiredAs field (asText field maximum)

def requiredBool (field : UInt64) : FieldReader Bool :=
  requiredAs field (asBool field)

/-- `remove` of a field that may be missing. -/
def removeField (field : UInt64) : FieldReader (Option CborValue) := fun fields =>
  .ok (fields.lookup field, fields.erase field)

/-- A check between two reads. -/
def check {α : Type} (result : Except RpcError α) : FieldReader α := fun fields =>
  result.map fun value => (value, fields)

def validateBody (value : CborValue) (field : UInt64) : Except RpcError Unit :=
  rejectIf (!value.isMap) (.wrongType field)

/-- The fields that every message has. -/
def commonFields (expectedKind : MessageKind) :
    FieldReader (CorrelationId × Method) := do
  let version ← requiredUnsigned 1
  check (rejectIf (version ≠ VERSION) (.protocolMismatch version))
  let kind ← requiredUnsigned 2
  let kind ← check (MessageKind.fromCode kind)
  -- Never so after `fromCbor`, which chose the reader by this kind.
  check (rejectIf (kind ≠ expectedKind) (.invalidField 2))
  let id ← requiredBytes 3 16
  let id ← check (orFault (.invalidField 3) (ByteArr.ofBytes? 16 id))
  let method ← requiredUnsigned 4
  let method ← check (Method.fromCode method)
  return (⟨id⟩, method)

/-- The reads of a request or of a response: the body follows the common fields. -/
def readBody {T : Type} (kind : MessageKind)
    (new : CorrelationId → Method → CborValue → Except RpcError T) :
    FieldReader T := do
  let (correlationId, method) ← commonFields kind
  let body ← required 5
  check (new correlationId method body)

/-- `from_fields`: unknown fields are rejected before anything is read. -/
def fromFieldsWith {T : Type} (known : List UInt64) (read : FieldReader T)
    (fields : Fields) : Except RpcError T := do
  rejectUnknown fields known
  let (message, _) ← read fields
  return message

/-! ### Messages -/

def envelopeEntries (kind : MessageKind) (correlationId : CorrelationId)
    (method : Method) : List (UInt64 × CborValue) :=
  [(1, .unsigned VERSION),
    (2, .unsigned kind.code),
    (3, .bytes correlationId.asBytes.val),
    (4, .unsigned method.code)]

/-- The entries of a request or of a response. -/
def envelope (kind : MessageKind) (correlationId : CorrelationId) (method : Method)
    (body : CborValue) : List (UInt64 × CborValue) :=
  envelopeEntries kind correlationId method ++ [(5, body)]

structure RpcRequest where
  correlationId : CorrelationId
  method : Method
  body : CborValue

structure RpcResponse where
  correlationId : CorrelationId
  method : Method
  body : CborValue

structure RpcFailure where
  correlationId : CorrelationId
  method : Method
  code : ErrorCode
  retryable : Bool
  details : Option CborValue

namespace RpcRequest

def new (correlationId : CorrelationId) (method : Method) (body : CborValue) :
    Except RpcError RpcRequest := do
  validateBody body 5
  return { correlationId, method, body }

def entries (message : RpcRequest) : List (UInt64 × CborValue) :=
  envelope .request message.correlationId message.method message.body

def toCbor (message : RpcRequest) : Except RpcError CborValue := do
  validateBody message.body 5
  return record message.entries

def fromFields : Fields → Except RpcError RpcRequest :=
  fromFieldsWith [1, 2, 3, 4, 5] (readBody .request RpcRequest.new)

end RpcRequest

namespace RpcResponse

def new (correlationId : CorrelationId) (method : Method) (body : CborValue) :
    Except RpcError RpcResponse := do
  validateBody body 5
  return { correlationId, method, body }

def entries (message : RpcResponse) : List (UInt64 × CborValue) :=
  envelope .response message.correlationId message.method message.body

def toCbor (message : RpcResponse) : Except RpcError CborValue := do
  validateBody message.body 5
  return record message.entries

def fromFields : Fields → Except RpcError RpcResponse :=
  fromFieldsWith [1, 2, 3, 4, 5] (readBody .response RpcResponse.new)

end RpcResponse

namespace RpcFailure

/-- The check of the optional details. -/
def validateDetails (details : Option CborValue) : Except RpcError Unit :=
  match details with
  | some details => validateBody details 7
  | none => .ok ()

def entries (message : RpcFailure) : List (UInt64 × CborValue) :=
  envelopeEntries .error message.correlationId message.method ++
    [(5, .text message.code.text), (6, .bool message.retryable)] ++
    optionalEntry 7 message.details

def toCbor (message : RpcFailure) : Except RpcError CborValue := do
  validateDetails message.details
  return record message.entries

def read : FieldReader RpcFailure := do
  let (correlationId, method) ← commonFields .error
  let code ← requiredText 5 64
  let code ← check (ErrorCode.parse code)
  let retryable ← requiredBool 6
  -- The only field of a message that may be missing.
  let details ← removeField 7
  check (validateDetails details)
  return { correlationId, method, code, retryable, details }

def fromFields : Fields → Except RpcError RpcFailure :=
  fromFieldsWith [1, 2, 3, 4, 5, 6, 7] read

end RpcFailure

inductive RpcMessage where
  | request (message : RpcRequest)
  | response (message : RpcResponse)
  | failure (message : RpcFailure)

namespace RpcMessage

def toCbor : RpcMessage → Except RpcError CborValue
  | .request message => message.toCbor
  | .response message => message.toCbor
  | .failure message => message.toCbor

/-- The kind is read first, without taking it; its reader takes it again. -/
def fromCbor (value : CborValue) : Except RpcError RpcMessage := do
  let fields ← fields value
  let kind ← requiredUnsignedRef fields 2
  let kind ← MessageKind.fromCode kind
  match kind with
  | .request => return .request (← RpcRequest.fromFields fields)
  | .response => return .response (← RpcResponse.fromFields fields)
  | .error => return .failure (← RpcFailure.fromFields fields)

def encodeFrame (message : RpcMessage) : Except FrameError Bytes := do
  let message ← message.toCbor.mapError FrameError.rpc
  let payload ← (encode message).mapError fun fault => FrameError.rpc (.encode fault)
  rejectIf (payload.length > MAX_FRAME_PAYLOAD_BYTES)
    (FrameError.payloadTooLarge MAX_FRAME_PAYLOAD_BYTES)
  -- Within the limit the conversion does not fail; the source makes it all the same.
  let length ← orFault (FrameError.payloadTooLarge MAX_FRAME_PAYLOAD_BYTES)
    (toU32? payload.length)
  return beBytes FRAME_LENGTH_BYTES length.toNat ++ payload

/-- The limit on the declared length is checked before the packet's own length. -/
def decodeFrame (packet : Bytes) : Except FrameError RpcMessage := do
  rejectIf (packet.length < FRAME_LENGTH_BYTES) FrameError.tooShort
  let declared := beValue (packet.take FRAME_LENGTH_BYTES)
  let actual := packet.length - FRAME_LENGTH_BYTES
  rejectIf (declared > MAX_FRAME_PAYLOAD_BYTES)
    (FrameError.payloadTooLarge MAX_FRAME_PAYLOAD_BYTES)
  rejectIf (declared ≠ actual) (FrameError.lengthMismatch declared actual)
  let value ← (decode (packet.drop FRAME_LENGTH_BYTES)).mapError
    fun fault => FrameError.rpc (.cbor fault)
  (fromCbor value).mapError FrameError.rpc

end RpcMessage

end Rpc
end RootPermit
