import RootPermit.Broker.Database
import RootPermit.Foundation.MachineInt
import RootPermit.Protocol.Cose

/-!
# Parts of the store's transactions

The functions of `rp-broker-core/src/lib.rs` that run inside a transaction of
another function: the check of the pinned identity, the compare-and-set of a
request's state with its event, and the creation of its receipt.

Randomness is an argument: the 16 bytes that the operating system returns, or
nothing when it fails.
-/

namespace RootPermit
namespace Broker

open Foundation Protocol

/-- The broker's Ed25519 key; the key ID is derived from its public half. -/
structure BrokerSigningKey where
  key : ByteArr 32
  deriving DecidableEq, Repr

namespace BrokerSigningKey

def publicKey [Cryptography] (signer : BrokerSigningKey) : ByteArr 32 :=
  verifyingKey signer.key

def kid [Cryptography] (signer : BrokerSigningKey) : Bytes :=
  (sha256 signer.publicKey.val).val.take 16

end BrokerSigningKey

/-- What 16 random bytes are, or that the operating system has none. -/
abbrev Entropy := Option (ByteArr 16)

def randomBytes16 (entropy : Entropy) : Except BrokerError (ByteArr 16) :=
  orFault .io entropy

namespace PublicId

def bytes (id : PublicId) : Except BrokerError (ByteArr 16) :=
  orFault .corruptState id.bytes?

def random (entropy : Entropy) : Except BrokerError PublicId := do
  let bytes ← randomBytes16 entropy
  (PublicId.parse (Base64Url.encodeText bytes.val)).mapError
    fun _ => BrokerError.corruptState

end PublicId

/-! ### Reads -/

/-- The row of a request. -/
def Tables.request? (tables : Tables) (requestId : PublicId) : Option RequestRow :=
  Table.lookup RequestRow.requestId requestId.asStr tables.requests

/-- The events of a request, in table order. -/
def Tables.eventsOf (tables : Tables) (requestId : PublicId) : List EventRow :=
  Table.select EventRow.requestId requestId.asStr tables.requestEvents

/-- The receipts of a request. -/
def Tables.receiptsOf (tables : Tables) (requestId : PublicId) : List ReceiptRow :=
  Table.select ReceiptRow.requestId requestId.asStr tables.receipts

/-- The row of a request that a query needs to exist. -/
def requestRow (requestId : PublicId) (tables : Tables) :
    Except BrokerError RequestRow :=
  orFault (.sqlite .queryReturnedNoRows) (tables.request? requestId)

def requestState (requestId : PublicId) (tables : Tables) : Option RequestState :=
  (tables.request? requestId).map RequestRow.state

theorem requestState_eq_some_iff {requestId : PublicId} {tables : Tables}
    {state : RequestState} :
    requestState requestId tables = some state ↔
      ∃ row, tables.request? requestId = some row ∧ row.state = state :=
  Option.map_eq_some_iff

/-- The error of a compare-and-set that found another state. -/
def raceLost : Option RequestState → BrokerError
  | some actual => .lifecycleRaceLost actual
  | none => .notFound

/-- `ORDER BY sequence DESC LIMIT 1`. -/
def latestRow (events : List EventRow) : Option EventRow :=
  (events.insertionSort fun first second => second.sequence ≤ first.sequence).head?

def latestEvent (requestId : PublicId) (tables : Tables) :
    Except BrokerError EventRow :=
  orFault (.sqlite .queryReturnedNoRows) (latestRow (tables.eventsOf requestId))

/-- The identity row names this signer. -/
def IdentityRow.Names [Cryptography] (row : IdentityRow)
    (signer : BrokerSigningKey) : Prop :=
  row.keyKid = signer.kid ∧ row.publicKey = signer.publicKey.val

instance [Cryptography] (row : IdentityRow) (signer : BrokerSigningKey) :
    Decidable (row.Names signer) :=
  inferInstanceAs (Decidable (_ ∧ _))

/-- The signer has been pinned to this database. -/
def ensureIdentity [Cryptography] (signer : BrokerSigningKey) : Tx Unit :=
  query fun tables =>
    match tables.brokerIdentity with
    | some row => rejectIf (¬ row.Names signer) .unsafeKey
    | none => .error .unsafeKey

/-! ### Transitions -/

/-- Sets the state of a request if it is the expected one; without an expectation
any state is overwritten.  Fails unless one row was changed. -/
def setState (requestId : PublicId) (expected : Option RequestState)
    (next : RequestState) : Tx Unit := do
  let condition := Table.at? RequestRow.requestId requestId.asStr fun row =>
    expected.all fun state => decide (row.state = state)
  let changed ← query fun tables => .ok (tables.requests.countP condition)
  execute fun tables =>
    { tables with
      requests := Table.update condition (fun row => { row with state := next })
        tables.requests }
  -- If nothing changed, this is the state that was found instead of the expected one.
  let actual ← query fun tables => .ok (requestState requestId tables)
  attempt (rejectIf (changed ≠ 1) (raceLost actual))

/-- Appends the event of a transition to the chain of its request.  The callers
differ in how they count: `advance` is the addition of one to the sequence. -/
def insertEvent [Cryptography] (requestId : PublicId) (next : RequestState)
    (reason : TransitionReason) (advance : UInt64 → Option UInt64) : Tx Unit := do
  let latest ← query (latestEvent requestId)
  let current ← attempt (orFault .numericOutOfRange (toU64? latest.sequence.toInt))
  let sequence ← attempt (orFault .numericOutOfRange (advance current))
  let previousEventDigest ← attempt
    (orFault .corruptState (ByteArr.ofBytes? 32 latest.eventDigest))
  let eventDigest :=
    lifecycleEventDigest requestId sequence (some previousEventDigest) next reason
  -- The digest binds the `u64`; the column holds the `i64`.
  let stored ← attempt (orFault .numericOutOfRange (toI64? sequence.toNat))
  execute fun tables =>
    { tables with
      requestEvents := tables.requestEvents ++
        [{ requestId := requestId.asStr
           sequence := stored
           state := next.asDb
           reason := reason.asDb
           previousEventDigest := some previousEventDigest.val
           eventDigest := eventDigest.val }] }

def appendTransition [Cryptography] (requestId : PublicId)
    (expected : Option RequestState) (next : RequestState)
    (reason : TransitionReason) : Tx Unit := do
  setState requestId expected next
  insertEvent requestId next reason checkedSucc

/-! ### Receipts -/

def COSE_CONTENT_TYPE_REQUEST : UInt64 := 1

def COSE_CONTENT_TYPE_RECEIPT : UInt64 := 3

/-- Signs a payload and encodes the envelope. -/
def signEnvelope [Cryptography] (signer : BrokerSigningKey) (payload : Bytes)
    (contentType : UInt64) (domain : Domain) : Except BrokerError Bytes :=
  (CoseSign1.sign payload signer.kid contentType domain signer.key >>=
    CoseSign1.encode).mapError fun _ => .receipt

/-- The digest in a nullable column; null stands for zeros. -/
def digestColumn : Option Bytes → Except BrokerError Digest
  | some bytes => orFault .corruptState (ByteArr.ofBytes? 32 bytes)
  | none => .ok (ByteArr.fill 32 0)

/-- The execution evidence of a receipt. -/
def executionEvidence [Cryptography] (terminalState : RequestState)
    (recoveryEvidence : Option Bytes) : CborValue :=
  .map ((.unsigned 1, .unsigned (receiptStateCode terminalState)) ::
    match recoveryEvidence with
    | some evidence => [(.unsigned 2, .bytes (sha256 evidence).val)]
    | none => [])

/-- The receipt of a request, from its row and the broker's metadata. -/
def receiptOf [Cryptography] (receiptId requestId : PublicId) (row : RequestRow)
    (metadata : MetadataRow) (terminalState : RequestState) (nowUtc : Int64)
    (authorizationEvidence : List CborValue) : Except BrokerError Receipt := do
  let requestDigest ← orFault .corruptState
    (ByteArr.ofBytes? 32 (row.requestDigest.getD row.inputDigest))
  let planDigest ← digestColumn row.planDigest
  let receiptId ← receiptId.bytes
  let requestId ← requestId.bytes
  let brokerEpoch ← orFault .numericOutOfRange (toU64? metadata.bootEpoch.toInt)
  return { receiptId, requestId, requestDigest, planDigest
           terminalState := receiptStateCode terminalState
           authorizationEvidence
           prestateEvidence := .map []
           executionEvidence := executionEvidence terminalState row.recoveryEvidence
           createdUtc := row.createdUtc
           completedUtc := nowUtc
           brokerEpoch }

/-- `UPDATE requests SET … WHERE request_id = ?`. -/
def updateRequest (requestId : PublicId) (change : RequestRow → RequestRow) :
    Tx Unit :=
  execute fun tables =>
    { tables with
      requests := Table.update
        (Table.at? RequestRow.requestId requestId.asStr fun _ => true) change
        tables.requests }

/-- Sets `receipt_bytes`; a trigger aborts the statement when they were set. -/
def setReceiptBytes (requestId : PublicId) (cose : Bytes) : Tx Unit := do
  let row ← query fun tables => .ok (tables.request? requestId)
  attempt (rejectIf (∃ old ∈ row, old.receiptBytes.isSome)
    (.sqlite .constraintViolation))
  updateRequest requestId fun row => { row with receiptBytes := some cose }

def createReceipt [Cryptography] (requestId : PublicId)
    (terminalState : RequestState) (signer : BrokerSigningKey) (nowUtc : Int64)
    (authorizationEvidence : List CborValue) (entropy : Entropy) : Tx Bytes := do
  let receiptId ← attempt (PublicId.random entropy)
  let row ← query (requestRow requestId)
  let metadata ← query fun tables => .ok tables.brokerMetadata
  let receipt ← attempt (receiptOf receiptId requestId row metadata terminalState
    nowUtc authorizationEvidence)
  let payload ← attempt (receipt.canonicalBytes.mapError fun _ => .receipt)
  let cose ← attempt
    (signEnvelope signer payload COSE_CONTENT_TYPE_RECEIPT .receipt)
  execute fun tables =>
    { tables with
      receipts := tables.receipts ++
        [{ receiptId := receiptId.asStr
           requestId := requestId.asStr
           requesterUid := row.requesterUid
           terminalState := terminalState.asDb
           coseBytes := cose
           createdUtc := row.createdUtc
           completedUtc := nowUtc }] }
  -- What is returned is read back from the table.
  let stored ← query fun tables =>
    orFault (.sqlite .queryReturnedNoRows) (tables.receiptsOf requestId).head?
  setReceiptBytes requestId stored.coseBytes
  return stored.coseBytes

end Broker
end RootPermit
