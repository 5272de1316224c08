import RootPermit.Broker.Statements

/-!
# Operations of the broker store

The operations of `BrokerStore` that are a single transaction and take a request
up to its decision: pinning the identity, starting a boot, submitting a request,
moving it between states that are not terminal, freezing it for a decision and
replacing the credentials.
-/

namespace RootPermit
namespace Broker

open Foundation Protocol WebAuthn

/-! ### Identity -/

/-- The device id of the pinned identity, or zeros while there is none. -/
def pinnedDeviceId (tables : Tables) : Except BrokerError (ByteArr 16) :=
  match tables.brokerIdentity.bind IdentityRow.deviceId with
  | some bytes => orFault .corruptState (ByteArr.ofBytes? 16 bytes)
  | none => .ok (ByteArr.fill 16 0)

/-- Pins the public key of the signer; returns the device id. -/
def initializeIdentity [Cryptography] (signer : BrokerSigningKey)
    (entropy : Entropy) : Tx (ByteArr 16) := do
  match ← query fun tables => .ok tables.brokerIdentity with
  | some row => do
      -- A pinned key is never replaced: any other signer is refused.
      attempt (rejectIf (¬ row.Names signer) .unsafeKey)
      match row.deviceId with
      | some deviceId => attempt (orFault .corruptState (ByteArr.ofBytes? 16 deviceId))
      -- The row is older than the column of device ids; only that column is filled in.
      | none => do
          let deviceId ← attempt (randomBytes16 entropy)
          execute fun tables =>
            { tables with
              brokerIdentity := tables.brokerIdentity.map fun row =>
                { row with deviceId := some deviceId.val } }
          return deviceId
  | none => do
      let deviceId ← attempt (randomBytes16 entropy)
      execute fun tables =>
        { tables with
          brokerIdentity := some
            { keyKid := signer.kid
              publicKey := signer.publicKey.val
              brokerEpoch := 0
              deviceId := some deviceId.val } }
      return deviceId

/-- The row of the pinned identity. -/
def identityRow (tables : Tables) : Except BrokerError IdentityRow :=
  orFault (.sqlite .queryReturnedNoRows) tables.brokerIdentity

/-! ### Boot -/

/-- Work of another boot that a new boot expires. -/
def workToExpire (epoch : Int64) (tables : Tables) : List String :=
  (tables.requests.filter fun row => decide
    (row.state ∈ [RequestState.planning, .pending, .approved] ∧
      row.bootEpoch ≠ epoch)).map RequestRow.requestId

/-- Expires the requests in turn, each with its own random bytes. -/
def expireAll [Cryptography] (signer : BrokerSigningKey) (nowUtc : Int64) :
    List String → (Nat → Entropy) → Tx Nat
  | [], _ => pure 0
  | requestId :: rest, entropy => do
      let requestId ← attempt
        ((PublicId.parse requestId).mapError fun _ => .corruptState)
      appendTransition requestId none .expired .expired
      let _ ← createReceipt requestId .expired signer nowUtc [] (entropy 0)
      let changed ← expireAll signer nowUtc rest fun index => entropy (index + 1)
      return changed + 1

def startBoot [Cryptography] (bootEpoch : UInt64) (signer : BrokerSigningKey)
    (nowUtc : Int64) (entropy : Nat → Entropy) : Tx Nat := do
  let epoch ← attempt (orFault .numericOutOfRange (toI64? bootEpoch.toNat))
  let previous ← query fun tables => .ok tables.brokerMetadata.bootEpoch
  if previous = epoch then return 0
  else do
    ensureIdentity signer
    -- All of them are listed before the first is expired.
    let requestIds ← query fun tables => .ok (workToExpire epoch tables)
    let changed ← expireAll signer nowUtc requestIds entropy
    execute fun tables =>
      { tables with
        brokerMetadata := { tables.brokerMetadata with bootEpoch := epoch } }
    return changed

/-! ### Submission -/

structure RequestSummary where
  requestId : PublicId
  requesterUid : RequesterUid
  state : RequestState
  generation : UInt64
  deriving DecidableEq, Repr

inductive SubmitOutcome where
  | created (summary : RequestSummary)
  | existing (summary : RequestSummary)
  deriving DecidableEq, Repr

def summaryFromValues (requestId : PublicId) (requesterUid : Int64)
    (state : RequestState) (generation : Int64) :
    Except BrokerError RequestSummary := do
  let uid ← orFault .numericOutOfRange (toU32? requesterUid.toInt)
  let generation ← orFault .numericOutOfRange (toU64? generation.toInt)
  return { requestId, requesterUid := ⟨uid⟩, state, generation }

structure IdempotencyRecord where
  inputDigest : ByteArr 32
  summary : RequestSummary
  deriving DecidableEq, Repr

/-- The `i64` of a requester UID. -/
def RequesterUid.asDb (uid : RequesterUid) : Int64 :=
  Int64.ofNat uid.asU32.toNat

theorem RequesterUid.toInt_asDb (uid : RequesterUid) :
    uid.asDb.toInt = uid.asU32.toNat := by
  have hSmall : uid.asU32.toNat < 2 ^ 32 := uid.asU32.toNat_lt
  rw [RequesterUid.asDb, Int64.toInt_ofNat_of_lt (by omega)]

def lookupIdempotency (requesterUid : RequesterUid) (operationKey : OperationKey)
    (tables : Tables) : Except BrokerError (Option IdempotencyRecord) :=
  match Table.lookup (fun row => (row.requesterUid, row.operationKey))
    (requesterUid.asDb, operationKey.asStr) tables.requests with
  | none => .ok none
  | some row => do
      let inputDigest ←
        orFault (.sqlite .invalidQuery) (ByteArr.ofBytes? 32 row.inputDigest)
      let requestId ←
        (PublicId.parse row.requestId).mapError fun _ => .sqlite .invalidQuery
      let summary ←
        (summaryFromValues requestId requesterUid.asDb row.state
          row.generation).mapError fun _ => .sqlite .toSqlConversionFailure
      return some { inputDigest, summary }

/-- The request that holds the active slot of a device. -/
def activeRequest (deviceId : String) (tables : Tables) : Option RequestRow :=
  Table.lookup RequestRow.deviceId deviceId tables.activeRequests

/-- The row of a new request. -/
def newRequest [Cryptography] (deviceId : String) (request : SubmitPackageInstall)
    (generation : Int64) : RequestRow where
  requestId := request.requestId.asStr
  deviceId := deviceId
  requesterUid := request.requesterUid.asDb
  operationKey := request.operationKey.asStr
  inputDigest := (inputDigest request.packageName).val
  packageName := request.packageName.asStr
  generation := generation
  state := .planning

/-- The first event of a request. -/
def createdEvent [Cryptography] (requestId : PublicId) : EventRow where
  requestId := requestId.asStr
  sequence := 1
  state := RequestState.planning.asDb
  reason := TransitionReason.created.asDb
  previousEventDigest := none
  eventDigest := (lifecycleEventDigest requestId 1 none .planning .created).val

def submit [Cryptography] (deviceId : String) (request : SubmitPackageInstall)
    (policy : PackageInstallPolicy) : Tx SubmitOutcome := do
  attempt (rejectIf (policy request.requesterUid request.packageName = .deny)
    .policyDenied)
  -- A repeated operation is answered from its row, whoever holds the active slot.
  match ← query (lookupIdempotency request.requesterUid request.operationKey) with
  | some existing => do
      attempt (rejectIf (existing.inputDigest ≠ inputDigest request.packageName)
        .idempotencyConflict)
      return .existing existing.summary
  | none => do
      -- The unique index would refuse the insertion too, but not name the holder.
      let holder ← query fun tables => .ok (activeRequest deviceId tables)
      match holder with
      | some row => attempt (.error (.busy row.requestId))
      | none => do
          let generation ← attempt
            (orFault .numericOutOfRange (toI64? request.generation.toNat))
          execute fun tables =>
            { tables with
              requests := tables.requests ++ [newRequest deviceId request generation] }
          execute fun tables =>
            { tables with
              requestEvents := tables.requestEvents ++
                [createdEvent request.requestId] }
          return .created
            { requestId := request.requestId
              requesterUid := request.requesterUid
              state := .planning
              generation := request.generation }

/-! ### Transitions and the frozen request -/

/-- The counter of `transition_nonterminal` saturates. -/
def transitionNonterminal [Cryptography] (requestId : PublicId)
    (expected next : RequestState) : Tx RequestState := do
  attempt (rejectIf (next.isTerminal = true ∨ expected.permits next = false)
    (.invalidTransition expected next))
  setState requestId (some expected) next
  insertEvent requestId next (transitionReason next)
    fun sequence => some (saturatingSucc sequence)
  return next

/-- The row of a request that is being planned. -/
def planningRow (requestId : PublicId) (tables : Tables) :
    Except BrokerError RequestRow := do
  let row ← orFault .notFound (tables.request? requestId)
  rejectIf (row.state ≠ .planning) (.lifecycleRaceLost row.state)
  return row

/-- The canonical request of a row, a plan and a context. -/
def frozenRequest (deviceIdBytes : ByteArr 16) (requestId : PublicId)
    (row : RequestRow) (identity : IdentityRow) (plan : FrozenPlan)
    (context : PendingRequestContext) : Except BrokerError Request := do
  let requestId ← requestId.bytes
  let brokerEpoch ← orFault .numericOutOfRange (toU64? identity.brokerEpoch.toInt)
  let generation ← orFault .numericOutOfRange (toU64? row.generation.toInt)
  let requesterUid ← orFault .numericOutOfRange (toU64? row.requesterUid.toInt)
  let operationInput ← (OperationInput.packageInstall row.packageName).mapError
    fun _ => .corruptState
  return { requestId
           deviceId := deviceIdBytes
           brokerEpoch, generation
           createdUtc := context.createdUtc
           expiresUtc := context.expiresUtc
           bootId := context.bootId
           deadlineMonoNs := context.deadlineMonoNs
           nonce := context.nonce
           requesterUid
           operation := .packageInstall
           operationInput
           policyId := context.policyId
           policyDigest := context.policyDigest
           planDigest := plan.planDigest
           frozenPlan := plan.toCbor
           agentNote := none }

/-- The columns that `prepare_for_decision` binds. -/
def bindRequest (plan : FrozenPlan) (context : PendingRequestContext)
    (requestDigest : Digest) (requestCose frozenPlan : Bytes) (deadline : Int64)
    (row : RequestRow) : RequestRow :=
  { row with
    planDigest := some plan.planDigest.val
    requestDigest := some requestDigest.val
    requestCose := some requestCose
    requestNonce := some context.nonce.val
    requestBootId := some context.bootId.val
    requestPolicyId := some context.policyId.val
    requestPolicyDigest := some context.policyDigest.val
    requestFrozenPlan := some frozenPlan
    requestExpiresUtc := some context.expiresUtc
    deadlineMonoNs := some deadline
    createdUtc := context.createdUtc }

def prepareForDecision [Cryptography] (deviceIdBytes : ByteArr 16)
    (requestId : PublicId) (plan : FrozenPlan) (context : PendingRequestContext)
    (signer : BrokerSigningKey) : Tx Bytes := do
  attempt (rejectIf (context.expiresUtc < context.createdUtc) .corruptState)
  ensureIdentity signer
  let row ← query (planningRow requestId)
  attempt (rejectIf (row.packageName ≠ plan.packageName.asStr) .corruptState)
  let identity ← query identityRow
  let request ← attempt
    (frozenRequest deviceIdBytes requestId row identity plan context)
  let requestDigest ← attempt (request.digest.mapError fun _ => .receipt)
  let payload ← attempt (request.canonicalBytes.mapError fun _ => .receipt)
  let requestCose ← attempt
    (signEnvelope signer payload COSE_CONTENT_TYPE_REQUEST .request)
  let frozenPlan ← attempt ((encode request.frozenPlan).mapError fun _ => .receipt)
  -- Everything is signed and encoded before the first row changes.
  appendTransition requestId (some .planning) .pending .plannerPending
  let deadline ← attempt
    (orFault .numericOutOfRange (toI64? context.deadlineMonoNs.toNat))
  updateRequest requestId
    (bindRequest plan context requestDigest requestCose frozenPlan deadline)
  return requestCose

/-! ### Credentials -/

/-- What `replace_credentials` requires of each credential. -/
def CredentialPin.Acceptable (credential : CredentialPin) : Prop :=
  credential.credentialId ≠ [] ∧ credential.credentialId.length ≤ 1024 ∧
    credential.publicKeyCose ≠ [] ∧ credential.publicKeyCose.length ≤ 4096 ∧
    credential.coseAlgorithm = ES256_ALGORITHM

instance (credential : CredentialPin) : Decidable credential.Acceptable :=
  inferInstanceAs (Decidable (_ ∧ _))

/-- The row of a credential; its counter starts at zero. -/
def CredentialPin.toRow (generation : Int64) (credential : CredentialPin) :
    CredentialRow where
  credentialId := credential.credentialId
  generation := generation
  coseAlgorithm := credential.coseAlgorithm
  publicKeyCose := credential.publicKeyCose

def insertCredentials (generation : Int64) : List CredentialPin → Tx Unit
  | [] => pure ()
  | credential :: rest => do
      execute fun tables =>
        { tables with
          credentials := tables.credentials ++ [credential.toRow generation] }
      insertCredentials generation rest

def replaceCredentials (generation : UInt64) (credentials : List CredentialPin) :
    Tx Unit := do
  attempt (rejectIf
    (credentials = [] ∨ ∃ credential ∈ credentials, ¬ credential.Acceptable)
    .corruptState)
  let generation ← attempt (orFault .numericOutOfRange (toI64? generation.toNat))
  -- The old rows go first: a new generation may pin the same identifiers.
  execute fun tables => { tables with credentials := [] }
  insertCredentials generation credentials
  execute fun tables =>
    { tables with
      brokerMetadata :=
        { tables.brokerMetadata with credentialGeneration := generation } }

def credentialGeneration (tables : Tables) : Except BrokerError UInt64 :=
  orFault .numericOutOfRange
    (toU64? tables.brokerMetadata.credentialGeneration.toInt)

def pinCredential (row : CredentialRow) : Except BrokerError PinnedCredential := do
  let generation ← orFault (.sqlite .invalidQuery) (toU64? row.generation.toInt)
  let previousSignCount ←
    orFault (.sqlite .invalidQuery) (toU32? row.signCount.toInt)
  return { credentialId := row.credentialId
           generation
           quarantined := decide (row.quarantined ≠ 0)
           coseAlgorithm := row.coseAlgorithm
           previousSignCount }

def pinnedCredentials (generation : UInt64) (tables : Tables) :
    Except BrokerError (List PinnedCredential) := do
  let generation ← orFault .numericOutOfRange (toI64? generation.toNat)
  (Table.select CredentialRow.generation generation tables.credentials).mapM
    pinCredential

end Broker
end RootPermit
