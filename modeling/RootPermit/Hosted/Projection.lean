import RootPermit.Broker.Intake
import RootPermit.Foundation.Run
import RootPermit.Foundation.Table

/-!
# Projections of lifecycle events

The hosted service and the relay keep projections of the event chains that brokers
publish.  This module embeds the guard of the relay (`ProjectionChain` of
`rp-relay/src/lib.rs`) and the repositories of the service
(`projection-repository.ts` and `recordVerifiedCeremony` of `approval-boundary.ts`)
over the tables that they use.  An operation of a repository is one transaction: when
it throws, nothing is changed.
-/

namespace RootPermit
namespace Hosted

open Foundation

/-! ### The guard of the relay -/

namespace Relay

structure VerifiedLifecycleEvent where
  sequence : UInt64
  eventDigest : ByteArr 32
  deriving DecidableEq, Repr

inductive ProjectionResult where
  | applied
  | duplicate
  | frozenGap
  deriving DecidableEq, Repr

/-- The contiguous events that were applied; `nextSequence` starts at zero. -/
structure ProjectionChain where
  applied : UInt64 → Option (ByteArr 32)
  nextSequence : UInt64
  frozenGap : Bool

namespace ProjectionChain

def empty : ProjectionChain where
  applied _ := none
  nextSequence := 0
  frozenGap := false

/-- The sequence that is expected next; a fresh chain expects one. -/
def expected (chain : ProjectionChain) : UInt64 :=
  if chain.nextSequence = 0 then 1 else chain.nextSequence

def ingest (chain : ProjectionChain) (event : VerifiedLifecycleEvent) :
    ProjectionResult × ProjectionChain :=
  -- A frozen chain gives this answer even to an event that it has applied.
  if chain.frozenGap then (.frozenGap, chain)
  else if event.sequence = chain.expected then
    (.applied,
      { chain with
        applied := fun sequence =>
          if sequence = event.sequence then some event.eventDigest
          else chain.applied sequence
        nextSequence := saturatingSucc chain.expected })
  else if event.sequence < chain.expected ∧
      chain.applied event.sequence = some event.eventDigest then
    (.duplicate, chain)
  else (.frozenGap, { chain with frozenGap := true })

/-- The chain that a list of events builds, unless one of them is not applied. -/
def ingestAll (candidate : ProjectionChain) :
    List VerifiedLifecycleEvent → Option ProjectionChain
  | [] => some candidate
  | event :: events =>
      match candidate.ingest event with
      | (.applied, next) => ingestAll next events
      -- A repeated event fails like a gap does.
      | _ => none

/-- Replaces the chain by one that the events build anew, or fails with a sequence
gap and leaves it as it was. -/
def restoreContiguous (chain : ProjectionChain)
    (events : List VerifiedLifecycleEvent) : Bool × ProjectionChain :=
  match ingestAll empty events with
  | some candidate => (true, candidate)
  | none => (false, chain)

end ProjectionChain

end Relay

/-! ### The tables of the service -/

/-- A number of the service's language: an integer, or any other value. -/
inductive Number where
  | integer (value : Int)
  | other
  deriving DecidableEq, Repr

def MAX_SAFE_INTEGER : Int := 0x1fffffffffffff

def Number.isSafeInteger : Number → Bool
  | .integer value =>
      decide (-MAX_SAFE_INTEGER ≤ value ∧ value ≤ MAX_SAFE_INTEGER)
  | .other => false

/-- A row of `request_envelopes`. -/
structure RequestEnvelopeRow where
  id : String
  tenantId : String
  publicId : String
  deviceId : String
  deriving DecidableEq, Repr

/-- A row of `credential_bindings`. -/
structure CredentialBindingRow where
  id : String
  tenantId : String
  publicId : String
  deviceId : String
  quarantinedAt : Option Int
  deriving DecidableEq, Repr

/-- The tenant and the envelope that a row belongs to. -/
structure RequestKey where
  tenantId : String
  requestEnvelopeId : String
  deriving DecidableEq, Repr

/-- A row of `lifecycle_projections`. -/
structure ProjectionRow where
  key : RequestKey
  brokerSequence : Int
  eventDigest : Bytes
  state : String
  frozenGap : Bool
  deriving DecidableEq, Repr

/-- A row of `projection_sync_states`. -/
structure SyncStateRow where
  key : RequestKey
  frozenGap : Bool
  lastVerifiedSequence : Int
  deriving DecidableEq, Repr

/-- A row of `outbox`. -/
structure OutboxRow where
  tenantId : String
  relationType : String
  relationId : String
  eventType : String
  payloadDigest : Bytes
  dedupeKey : Option String
  deriving DecidableEq, Repr

/-- A row of `decisions`. -/
structure DecisionRow where
  key : RequestKey
  publicId : String
  credentialBindingId : String
  assertionReference : Bytes
  decisionValue : Int
  verificationResult : String
  deriving DecidableEq, Repr

structure Tables where
  requestEnvelopes : List RequestEnvelopeRow := []
  credentialBindings : List CredentialBindingRow := []
  lifecycleProjections : List ProjectionRow := []
  projectionSyncStates : List SyncStateRow := []
  outbox : List OutboxRow := []
  decisions : List DecisionRow := []
  deriving DecidableEq, Repr

/-- The unique keys and checks of the schema. -/
structure Constraints (tables : Tables) : Prop where
  requestKey : Table.Keyed RequestEnvelopeRow.id tables.requestEnvelopes
  requestPublicId : Table.Keyed (fun row => (row.tenantId, row.publicId))
    tables.requestEnvelopes
  credentialPublicId : Table.Keyed (fun row => (row.tenantId, row.publicId))
    tables.credentialBindings
  projectionSequence : Table.Keyed (fun row => (row.key, row.brokerSequence))
    tables.lifecycleProjections
  projectionDigest : Table.Keyed (fun row => (row.key, row.eventDigest))
    tables.lifecycleProjections
  projectionChecks : ∀ row ∈ tables.lifecycleProjections,
    0 ≤ row.brokerSequence ∧ row.eventDigest.length = 32
  syncState : Table.Keyed SyncStateRow.key tables.projectionSyncStates
  syncChecks : ∀ row ∈ tables.projectionSyncStates, -1 ≤ row.lastVerifiedSequence
  outboxDedupe : Table.Keyed
    (fun row => (row.tenantId, row.relationType, row.relationId, row.dedupeKey))
    (tables.outbox.filter fun row => row.dedupeKey.isSome)
  decisionPublicId : Table.Keyed (fun row => (row.key.tenantId, row.publicId))
    tables.decisions
  decisionAssertion : Table.Keyed
    (fun row => (row.key, row.credentialBindingId, row.assertionReference))
    tables.decisions
  decisionChecks : ∀ row ∈ tables.decisions,
    row.decisionValue = 1 ∨ row.decisionValue = 2

instance (tables : Tables) : Decidable (Constraints tables) :=
  decidable_of_iff
    (Table.Keyed RequestEnvelopeRow.id tables.requestEnvelopes ∧
      Table.Keyed (fun row => (row.tenantId, row.publicId))
        tables.requestEnvelopes ∧
      Table.Keyed (fun row => (row.tenantId, row.publicId))
        tables.credentialBindings ∧
      Table.Keyed (fun row => (row.key, row.brokerSequence))
        tables.lifecycleProjections ∧
      Table.Keyed (fun row => (row.key, row.eventDigest))
        tables.lifecycleProjections ∧
      (∀ row ∈ tables.lifecycleProjections,
        0 ≤ row.brokerSequence ∧ row.eventDigest.length = 32) ∧
      Table.Keyed SyncStateRow.key tables.projectionSyncStates ∧
      (∀ row ∈ tables.projectionSyncStates, -1 ≤ row.lastVerifiedSequence) ∧
      Table.Keyed
        (fun row => (row.tenantId, row.relationType, row.relationId, row.dedupeKey))
        (tables.outbox.filter fun row => row.dedupeKey.isSome) ∧
      Table.Keyed (fun row => (row.key.tenantId, row.publicId)) tables.decisions ∧
      Table.Keyed
        (fun row => (row.key, row.credentialBindingId, row.assertionReference))
        tables.decisions ∧
      ∀ row ∈ tables.decisions, row.decisionValue = 1 ∨ row.decisionValue = 2)
    ⟨fun ⟨h1, h2, h3, h4, h5, h6, h7, h8, h9, h10, h11, h12⟩ =>
        ⟨h1, h2, h3, h4, h5, h6, h7, h8, h9, h10, h11, h12⟩,
      fun ⟨h1, h2, h3, h4, h5, h6, h7, h8, h9, h10, h11, h12⟩ =>
        ⟨h1, h2, h3, h4, h5, h6, h7, h8, h9, h10, h11, h12⟩⟩

/-- Tables that satisfy the constraints. -/
structure Database extends Tables where
  constraints : Constraints toTables

/-- A transaction: it returns a value and the new state, or throws. -/
abbrev Tx (α : Type) := StateT Database (Except String) α

def query {α : Type} (read : Tables → Except String α) : Tx α :=
  fun database => (read database.toTables).map fun value => (value, database)

/-- Executes a statement; a violated constraint aborts it. -/
def execute (change : Tables → Tables) : Tx Unit := fun database =>
  if h : Constraints (change database.toTables) then
    .ok ((), { toTables := change database.toTables, constraints := h })
  else .error "a constraint is violated"

theorem query_eq_ok_iff {α : Type} {read : Tables → Except String α}
    {before after : Database} {value : α} :
    query read before = .ok (value, after) ↔
      read before.toTables = .ok value ∧ before = after := by
  rw [query, map_eq_ok_iff]
  constructor
  · rintro ⟨found, hFound, hPair⟩
    obtain ⟨rfl, rfl⟩ := Prod.mk.inj hPair
    exact ⟨hFound, rfl⟩
  · rintro ⟨hRead, rfl⟩
    exact ⟨value, hRead, rfl⟩

theorem execute_eq_ok {change : Tables → Tables} {before after : Database}
    {result : Unit} (h : execute change before = .ok (result, after)) :
    after.toTables = change before.toTables := by
  unfold execute at h
  split at h
  · cases h
    rfl
  · cases h

/-! ### Lifecycle projections -/

/-- The capability of a verified session; a transaction takes its tenant as the uuid that
the text spells (`TenantScope.cast`). -/
structure TenantScope where
  tenantId : String
  accountId : String
  deriving DecidableEq, Repr

inductive ProjectionApplyResult where
  | applied
  | duplicate
  | frozenGap
  deriving DecidableEq, Repr

structure VerifiedLifecycleEvent where
  requestPublicId : String
  sequence : Number
  eventDigest : Bytes
  previousEventDigest : Option Bytes
  state : String
  deriving DecidableEq, Repr

def LIFECYCLE_STATES : List String :=
  ["awaiting_event", "pending", "approved", "executing", "succeeded", "failed",
    "cancelled", "expired", "stale", "recovery_required"]

def requirePublicId (value : String) : Except String Unit :=
  rejectIf (Broker.isPublicId value = false)
    "public id must be a 16-byte base64url value"

/-- The non-negative safe integer that a number is. -/
def Number.asSequence? : Number → Option Int
  | .integer value =>
      if (Number.integer value).isSafeInteger = true ∧ 0 ≤ value then some value
      else none
  | .other => none

/-- Checks an event and returns its sequence as an integer. -/
def validateEvent (event : VerifiedLifecycleEvent) : Except String Int := do
  requirePublicId event.requestPublicId
  let sequence ← orFault "lifecycle sequence must be a non-negative safe integer"
    event.sequence.asSequence?
  rejectIf (event.eventDigest.length ≠ 32) "lifecycle event digest must be SHA-256"
  rejectIf (∃ digest ∈ event.previousEventDigest, digest.length ≠ 32)
    "previous lifecycle event digest must be SHA-256"
  rejectIf (event.state ∉ LIFECYCLE_STATES ∨ event.state = "frozen_gap")
    "lifecycle state is not a broker state"
  return sequence

/-- The events have the sequences from `index` on, and each names the digest of the
one before it. -/
def validateContiguousChain (index : Nat) (prior : Option Bytes) :
    List VerifiedLifecycleEvent → Except String Unit
  | [] => .ok ()
  | event :: events => do
      rejectIf (event.sequence ≠ .integer index ∨ event.previousEventDigest ≠ prior)
        "verified resync must be a contiguous event chain starting at sequence zero"
      validateContiguousChain (index + 1) (some event.eventDigest) events

/-- The envelope of a public id in the tenant of a scope. -/
def scopedRequestForUpdate (scope : TenantScope) (requestPublicId : String)
    (tables : Tables) : Except String RequestKey :=
  match Table.lookup (fun row => (row.tenantId, row.publicId))
    (scope.tenantId, requestPublicId) tables.requestEnvelopes with
  | some row => .ok { tenantId := scope.tenantId, requestEnvelopeId := row.id }
  | none => .error "not_found_or_not_authorized"

/-- The projection of a request. -/
def Tables.projectionOf (tables : Tables) (key : RequestKey) : List ProjectionRow :=
  Table.select ProjectionRow.key key tables.lifecycleProjections

/-- `ORDER BY broker_sequence DESC LIMIT 1`. -/
def latest (rows : List ProjectionRow) : Option ProjectionRow :=
  (rows.insertionSort fun first second =>
    second.brokerSequence ≤ first.brokerSequence).head?

/-- `COALESCE(projection_sync_states.frozen_gap, false)`. -/
def Tables.frozenGap (tables : Tables) (key : RequestKey) : Bool :=
  ((Table.lookup SyncStateRow.key key tables.projectionSyncStates).map
    SyncStateRow.frozenGap).getD false

def insertProjection (key : RequestKey) (sequence : Int)
    (event : VerifiedLifecycleEvent) (frozenGap : Bool) : Tx Unit :=
  execute fun tables =>
    { tables with
      lifecycleProjections := tables.lifecycleProjections ++
        [{ key, brokerSequence := sequence, eventDigest := event.eventDigest
           state := event.state, frozenGap }] }

/-- Inserts a row, or changes the one with its key. -/
def upsertSyncState (row : SyncStateRow) (change : SyncStateRow → SyncStateRow) :
    Tx Unit :=
  execute fun tables =>
    { tables with
      projectionSyncStates :=
        if (Table.lookup SyncStateRow.key row.key tables.projectionSyncStates).isSome
        then Table.update (fun found => decide (found.key = row.key)) change
          tables.projectionSyncStates
        else tables.projectionSyncStates ++ [row] }

/-- The sync state after a verified sequence. -/
def markVerified (key : RequestKey) (sequence : Int) : Tx Unit :=
  upsertSyncState { key, frozenGap := false, lastVerifiedSequence := sequence }
    fun row => { row with frozenGap := false, lastVerifiedSequence := sequence }

def resyncDigest [Cryptography] (requestId : String) (observedDigest : Bytes) :
    Bytes :=
  (sha256 (utf8 "rootpermit/projection-resync/v1\x00" ++ utf8 requestId ++
    observedDigest)).val

/-- The outbox row asks for a resync of this request. -/
def OutboxRow.AsksResync (key : RequestKey) (row : OutboxRow) : Prop :=
  row.tenantId = key.tenantId ∧ row.relationType = "request_envelope" ∧
    row.relationId = key.requestEnvelopeId ∧ row.dedupeKey = some "projection-resync"

instance (key : RequestKey) (row : OutboxRow) : Decidable (row.AsksResync key) :=
  inferInstanceAs (Decidable (_ ∧ _))

def freezeAndQueueResync [Cryptography] (key : RequestKey) (observedDigest : Bytes) :
    Tx Unit := do
  upsertSyncState { key, frozenGap := true, lastVerifiedSequence := -1 }
    fun row => { row with frozenGap := true }
  -- A queued row is only made visible again, which these tables do not record.
  execute fun tables =>
    { tables with
      outbox :=
        if ∃ row ∈ tables.outbox, row.AsksResync key then tables.outbox
        else tables.outbox ++
          [{ tenantId := key.tenantId, relationType := "request_envelope"
             relationId := key.requestEnvelopeId
             eventType := "projection_resync_requested"
             payloadDigest := resyncDigest key.requestEnvelopeId observedDigest
             dedupeKey := some "projection-resync" }] }

/-- The event comes right after the last row of a projection. -/
def Follows (rows : List ProjectionRow) (sequence : Int)
    (previousEventDigest : Option Bytes) : Prop :=
  match latest rows with
  | none => sequence = 0 ∧ previousEventDigest = none
  | some last => sequence = last.brokerSequence + 1 ∧
      previousEventDigest = some last.eventDigest

instance (rows : List ProjectionRow) (sequence : Int)
    (previousEventDigest : Option Bytes) :
    Decidable (Follows rows sequence previousEventDigest) :=
  match h : latest rows with
  | none => decidable_of_iff (sequence = 0 ∧ previousEventDigest = none)
      (by rw [Follows, h])
  | some last => decidable_of_iff (sequence = last.brokerSequence + 1 ∧
      previousEventDigest = some last.eventDigest) (by rw [Follows, h])

def apply [Cryptography] (scope : TenantScope) (sequence : Int)
    (event : VerifiedLifecycleEvent) : Tx ProjectionApplyResult := do
  let key ← query (scopedRequestForUpdate scope event.requestPublicId)
  let rows ← query fun tables => .ok (tables.projectionOf key)
  match rows.find? fun row => decide (row.brokerSequence = sequence) with
  | some existing =>
      if existing.eventDigest = event.eventDigest then return .duplicate
      -- An applied sequence with another digest.
      else do
        freezeAndQueueResync key event.eventDigest
        return .frozenGap
  | none =>
      if ¬ Follows rows sequence event.previousEventDigest then do
        freezeAndQueueResync key event.eventDigest
        return .frozenGap
      else do
        insertProjection key sequence event false
        markVerified key sequence
        return .applied

def applyVerifiedEvent [Cryptography] (scope : TenantScope)
    (event : VerifiedLifecycleEvent) : Tx ProjectionApplyResult := do
  let sequence ← query fun _ => validateEvent event
  apply scope sequence event

/-- Each event is checked in turn, and names this request. -/
def validateResync (requestPublicId : String) :
    List VerifiedLifecycleEvent → Except String (List Int)
  | [] => .ok []
  | event :: events => do
      let sequence ← validateEvent event
      rejectIf (event.requestPublicId ≠ requestPublicId)
        "verified resync contains a different request"
      let sequences ← validateResync requestPublicId events
      return sequence :: sequences

def insertProjections (key : RequestKey) :
    List (Int × VerifiedLifecycleEvent) → Tx Unit
  | [] => pure ()
  | (sequence, event) :: rest => do
      insertProjection key sequence event false
      insertProjections key rest

def replaceFromVerifiedResync (scope : TenantScope) (requestPublicId : String)
    (events : List VerifiedLifecycleEvent) : Tx Unit := do
  query fun _ => requirePublicId requestPublicId
  query fun _ => rejectIf (events = [])
    "verified resync must contain at least one lifecycle event"
  let sequences ← query fun _ => validateResync requestPublicId events
  query fun _ => validateContiguousChain 0 none events
  let key ← query (scopedRequestForUpdate scope requestPublicId)
  execute fun tables =>
    { tables with
      lifecycleProjections := tables.lifecycleProjections.filter
        fun row => decide (row.key ≠ key) }
  insertProjections key (sequences.zip events)
  markVerified key (sequences.getLast?.getD 0)
  execute fun tables =>
    { tables with
      outbox := tables.outbox.filter fun row => decide (¬ row.AsksResync key) }

/-! ### Decisions -/

inductive DecisionValue where
  | approve
  | deny
  deriving DecidableEq, Repr

/-- What the verifier of a ceremony hands over. -/
structure VerifiedApprovalCeremony where
  credentialBindingPublicId : String
  assertionReference : Bytes
  decision : DecisionValue
  deriving DecidableEq, Repr

structure BrokerForwardDecision where
  requestPublicId : String
  decisionPublicId : String
  decision : DecisionValue
  credentialBindingPublicId : String
  assertionReference : Bytes
  deriving DecidableEq, Repr

structure DecisionRelation where
  request : RequestEnvelopeRow
  credential : CredentialBindingRow
  projectionState : Option String
  frozenGap : Bool

/-- The request and the credential, when both are of one device of the tenant. -/
def findPinnedRelation (scope : TenantScope)
    (requestPublicId credentialPublicId : String) (tables : Tables) :
    Option DecisionRelation := do
  let request ← Table.lookup (fun row => (row.tenantId, row.publicId))
    (scope.tenantId, requestPublicId) tables.requestEnvelopes
  let credential ← Table.lookup (fun row => (row.tenantId, row.publicId))
    (scope.tenantId, credentialPublicId) tables.credentialBindings
  if credential.deviceId = request.deviceId then
    let key : RequestKey :=
      { tenantId := scope.tenantId, requestEnvelopeId := request.id }
    some { request, credential
           projectionState := (latest (tables.projectionOf key)).map ProjectionRow.state
           frozenGap := tables.frozenGap key }
  else none

def recordVerifiedCeremony (scope : TenantScope) (requestPublicId : String)
    (ceremony : VerifiedApprovalCeremony) (decisionPublicId : String) :
    Tx BrokerForwardDecision := do
  query fun _ => rejectIf (Broker.isPublicId requestPublicId = false)
    "request public id must be a 16-byte base64url value"
  query fun _ => rejectIf (Broker.isPublicId decisionPublicId = false)
    "decision public id must be a 16-byte base64url value"
  query fun _ => rejectIf (ceremony.assertionReference.length ≠ 32)
    "decision requires a verified bounded WebAuthn ceremony"
  let relation ← query fun tables => orFault "not_found_or_not_authorized"
    (findPinnedRelation scope requestPublicId ceremony.credentialBindingPublicId
      tables)
  query fun _ => rejectIf (relation.credential.quarantinedAt ≠ none)
    "credential_quarantined"
  query fun _ => rejectIf
    (relation.frozenGap = true ∨ relation.projectionState ≠ some "pending")
    "request_not_pending"
  -- `ON CONFLICT DO NOTHING` inserts no row, which the source reports as a replay.
  query fun tables => rejectIf
    ((scope.tenantId, decisionPublicId) ∈
      tables.decisions.map fun row => (row.key.tenantId, row.publicId))
    "decision_replayed"
  execute fun tables =>
    { tables with
      decisions := tables.decisions ++
        [{ key := { tenantId := scope.tenantId
                    requestEnvelopeId := relation.request.id }
           publicId := decisionPublicId
           credentialBindingId := relation.credential.id
           assertionReference := ceremony.assertionReference
           decisionValue := match ceremony.decision with
             | .approve => 1
             | .deny => 2
           verificationResult := "webauthn_verified" }] }
  return { requestPublicId := relation.request.publicId
           decisionPublicId
           decision := ceremony.decision
           credentialBindingPublicId := relation.credential.publicId
           assertionReference := ceremony.assertionReference }

end Hosted
end RootPermit
