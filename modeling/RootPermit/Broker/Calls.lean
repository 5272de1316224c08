import RootPermit.Broker.Decision
import RootPermit.Foundation.Run

/-!
# Calls of the store

The public operations of `BrokerStore` with their arguments, what a call does to
the database and to the handle it is made through, and the reads of a store.  A
call that fails changes nothing.
-/

namespace RootPermit
namespace Broker

open Foundation Protocol WebAuthn

/-- A public operation with its arguments.  `reopen` closes the handle and opens
the database again. -/
inductive Call where
  | reopen
  | initializeIdentity (signer : BrokerSigningKey) (entropy : Entropy)
  | startBoot (bootEpoch : UInt64) (signer : BrokerSigningKey) (nowUtc : Int64)
      (entropy : Nat → Entropy)
  | submit (request : SubmitPackageInstall) (policy : PackageInstallPolicy)
  | transitionNonterminal (requestId : PublicId) (expected next : RequestState)
  | prepareForDecision (requestId : PublicId) (plan : FrozenPlan)
      (context : PendingRequestContext) (signer : BrokerSigningKey)
  | replaceCredentials (generation : UInt64) (credentials : List CredentialPin)
  | applyWebauthnSubmission (decision : DecisionAttempt)
      (signer : BrokerSigningKey) (entropy : Entropy)
  | transitionTerminal (requestId : PublicId) (expected next : RequestState)
      (signer : BrokerSigningKey) (nowUtc : Int64) (entropy : Entropy)
  | reconcileRecovery (requestId : PublicId) (succeeded : Bool)
      (operatorEvidence : Bytes) (signer : BrokerSigningKey) (nowUtc : Int64)
      (entropy : Entropy)

/-- The transaction of a call through a handle with this device id; it returns the
device id of the handle afterwards. -/
def Call.transaction [Cryptography] (deviceIdBytes : ByteArr 16)
    (snapshots : Snapshots) : Call → Tx (ByteArr 16)
  | .reopen => query pinnedDeviceId
  | .initializeIdentity signer entropy => Broker.initializeIdentity signer entropy
  | .startBoot bootEpoch signer nowUtc entropy => do
      let _ ← Broker.startBoot bootEpoch signer nowUtc entropy
      return deviceIdBytes
  | .submit request policy => do
      let _ ← Broker.submit (Base64Url.encodeText deviceIdBytes.val) request policy
      return deviceIdBytes
  | .transitionNonterminal requestId expected next => do
      let _ ← Broker.transitionNonterminal requestId expected next
      return deviceIdBytes
  | .prepareForDecision requestId plan context signer => do
      let _ ← Broker.prepareForDecision deviceIdBytes requestId plan context signer
      return deviceIdBytes
  | .replaceCredentials generation credentials => do
      Broker.replaceCredentials generation credentials
      return deviceIdBytes
  | .applyWebauthnSubmission decision signer entropy => do
      let _ ← Broker.applyWebauthnSubmission deviceIdBytes snapshots decision signer
        entropy
      return deviceIdBytes
  | .transitionTerminal requestId expected next signer nowUtc entropy => do
      let _ ← Broker.transitionTerminal requestId expected next signer nowUtc entropy
      return deviceIdBytes
  | .reconcileRecovery requestId succeeded evidence signer nowUtc entropy => do
      let _ ← Broker.reconcileRecovery requestId succeeded evidence signer nowUtc
        entropy
      return deviceIdBytes

/-! ### One handle -/

/-- A store: a database and the device id that its handle carries. -/
structure BrokerStore where
  database : Database
  deviceIdBytes : ByteArr 16

namespace BrokerStore

/-- A store over the migrated, empty database. -/
def empty : BrokerStore where
  database := Database.migrated
  deviceIdBytes := ByteArr.fill 16 0

/-- The outcome of a call: the store after it, or its error. -/
def call [Cryptography] (store : BrokerStore) (call : Call) :
    Except BrokerError BrokerStore :=
  (call.transaction store.deviceIdBytes (Snapshots.at store.database.toTables)
    store.database).map
      fun result => { database := result.2, deviceIdBytes := result.1 }

/-- The store after a call; a failed call leaves it as it was. -/
def step [Cryptography] (store : BrokerStore) (call : Call) : BrokerStore :=
  match store.call call with
  | .ok next => next
  | .error _ => store

theorem empty_deviceIdBytes :
    pinnedDeviceId empty.database.toTables = .ok empty.deviceIdBytes := rfl

end BrokerStore

/-! ### Reads -/

def receipt (requestId : PublicId) (tables : Tables) : Option Bytes :=
  (tables.receiptsOf requestId).head?.map ReceiptRow.coseBytes

def request (requestId : PublicId) (tables : Tables) :
    Except BrokerError (Option RequestSummary) :=
  match tables.request? requestId with
  | none => .ok none
  | some row => do
      let summary ←
        (summaryFromValues requestId row.requesterUid row.state
          row.generation).mapError fun _ => .sqlite .toSqlConversionFailure
      return some summary

/-- The event of a row. -/
def eventOfRow (row : EventRow) : Except BrokerError LifecycleEvent := do
  let previousEventDigest ←
    match row.previousEventDigest with
    | some bytes => (orFault .corruptState (ByteArr.ofBytes? 32 bytes)).map some
    | none => .ok none
  let eventDigest ← orFault .corruptState (ByteArr.ofBytes? 32 row.eventDigest)
  let sequence ← orFault .numericOutOfRange (toU64? row.sequence.toInt)
  let state ← orFault .corruptState (RequestState.fromDb? row.state)
  let reason ← orFault .corruptState (TransitionReason.fromCode? row.reason)
  return { sequence, previousEventDigest, state, reason, eventDigest }

/-- The event chain of a request, by sequence. -/
def events (requestId : PublicId) (tables : Tables) :
    Except BrokerError (List LifecycleEvent) :=
  ((tables.eventsOf requestId).insertionSort
    fun first second => first.sequence ≤ second.sequence).mapM eventOfRow

end Broker
end RootPermit
