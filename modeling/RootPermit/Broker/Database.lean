import RootPermit.Broker.Lifecycle
import RootPermit.Foundation.Table
import RootPermit.WebAuthn.Submission

/-!
# The broker's database

This module embeds the schema of `rp-broker-core/migrations` after its last
migration, as far as the store reads or writes it.  Each table is a list of rows;
a database is a set of tables that satisfies the constraints of the schema, and a
statement that would violate one of them fails.

A transaction is a computation on a database that returns a result or an error.
An error discards every change, so only the databases of successful transactions
are ever seen by another transaction.
-/

namespace RootPermit
namespace Broker

open Foundation Protocol WebAuthn

/-! ### Failures -/

/-- The failures of `rusqlite` that the store can meet. -/
inductive SqliteError where
  | constraintViolation
  | queryReturnedNoRows
  | invalidColumnType
  | invalidQuery
  | toSqlConversionFailure
  deriving DecidableEq, Repr

inductive BrokerError where
  | sqlite (fault : SqliteError)
  | policyDenied
  | idempotencyConflict
  | busy (requestId : String)
  | lifecycleRaceLost (actual : RequestState)
  | invalidTransition (source target : RequestState)
  | notFound
  | corruptState
  | numericOutOfRange
  | io
  | unsafeKey
  | receipt
  | webAuthn (fault : WebAuthnError)
  deriving DecidableEq, Repr

/-! ### Rows -/

/-- The states that hold the active slot of a device. -/
def ACTIVE_STATES : List RequestState :=
  [.planning, .pending, .approved, .executing, .recoveryRequired]

theorem mem_ACTIVE_STATES_iff {state : RequestState} :
    state ∈ ACTIVE_STATES ↔ state.isTerminal = false := by
  cases state <;> decide

/-- A row of `requests`.  The column `state` is a text that a check restricts to
the names of the lifecycle states. -/
structure RequestRow where
  requestId : String
  deviceId : String
  requesterUid : Int64
  operationKey : String
  inputDigest : Bytes
  packageName : String
  generation : Int64
  state : RequestState
  bootEpoch : Int64 := 0
  deadlineMonoNs : Option Int64 := none
  planDigest : Option Bytes := none
  createdUtc : Int64 := 0
  receiptBytes : Option Bytes := none
  recoveryEvidence : Option Bytes := none
  requestDigest : Option Bytes := none
  requestCose : Option Bytes := none
  requestNonce : Option Bytes := none
  requestBootId : Option Bytes := none
  requestPolicyId : Option Bytes := none
  requestPolicyDigest : Option Bytes := none
  requestFrozenPlan : Option Bytes := none
  requestExpiresUtc : Option Int64 := none
  deriving DecidableEq, Repr

/-- A row of `request_events`. -/
structure EventRow where
  requestId : String
  sequence : Int64
  state : String
  reason : Int64
  previousEventDigest : Option Bytes
  eventDigest : Bytes
  deriving DecidableEq, Repr

/-- A row of `receipts`. -/
structure ReceiptRow where
  receiptId : String
  requestId : String
  requesterUid : Int64
  terminalState : String
  coseBytes : Bytes
  createdUtc : Int64
  completedUtc : Int64
  deriving DecidableEq, Repr

/-- The row of `broker_identity`. -/
structure IdentityRow where
  keyKid : Bytes
  publicKey : Bytes
  brokerEpoch : Int64
  deviceId : Option Bytes
  deriving DecidableEq, Repr

/-- The row of `broker_metadata`. -/
structure MetadataRow where
  bootEpoch : Int64
  credentialGeneration : Int64
  deriving DecidableEq, Repr

/-- A row of `credentials`. -/
structure CredentialRow where
  credentialId : Bytes
  generation : Int64
  coseAlgorithm : Int64
  publicKeyCose : Bytes
  signCount : Int64 := 0
  quarantined : Int64 := 0
  deriving DecidableEq, Repr

structure Tables where
  requests : List RequestRow
  requestEvents : List EventRow
  receipts : List ReceiptRow
  brokerIdentity : Option IdentityRow
  brokerMetadata : MetadataRow
  credentials : List CredentialRow
  deriving DecidableEq, Repr

/-! ### Constraints of the schema -/

/-- `length(column) = size`, for a column that may be null. -/
def HasLength (size : Nat) (column : Option Bytes) : Prop :=
  ∀ bytes ∈ column, bytes.length = size

instance (size : Nat) (column : Option Bytes) : Decidable (HasLength size column) :=
  inferInstanceAs (Decidable (∀ bytes ∈ column, bytes.length = size))

/-- `column >= 0`, for a column that may be null. -/
def NotNegative (column : Option Int64) : Prop :=
  ∀ value ∈ column, 0 ≤ value

-- The instance is named because there is another one that tries every `i64`.
instance (column : Option Int64) : Decidable (NotNegative column) :=
  Option.decidableForallMem column

def RequestRow.Checked (row : RequestRow) : Prop :=
  0 ≤ row.requesterUid ∧ row.inputDigest.length = 32 ∧ 0 ≤ row.generation ∧
    0 ≤ row.bootEpoch ∧ NotNegative row.deadlineMonoNs ∧
    HasLength 32 row.planDigest ∧ HasLength 32 row.requestDigest ∧
    HasLength 32 row.requestNonce ∧ HasLength 16 row.requestBootId ∧
    HasLength 16 row.requestPolicyId ∧ HasLength 32 row.requestPolicyDigest

instance (row : RequestRow) : Decidable row.Checked := by
  unfold RequestRow.Checked
  infer_instance

def EventRow.Checked (row : EventRow) : Prop :=
  0 < row.sequence ∧ 0 < row.reason ∧ HasLength 32 row.previousEventDigest ∧
    row.eventDigest.length = 32

instance (row : EventRow) : Decidable row.Checked := by
  unfold EventRow.Checked
  infer_instance

def IdentityRow.Checked (row : IdentityRow) : Prop :=
  (8 ≤ row.keyKid.length ∧ row.keyKid.length ≤ 32) ∧ row.publicKey.length = 32 ∧
    0 ≤ row.brokerEpoch ∧ HasLength 16 row.deviceId

instance (row : IdentityRow) : Decidable row.Checked := by
  unfold IdentityRow.Checked
  infer_instance

def CredentialRow.Checked (row : CredentialRow) : Prop :=
  (1 ≤ row.credentialId.length ∧ row.credentialId.length ≤ 1024) ∧
    0 ≤ row.generation ∧
    (1 ≤ row.publicKeyCose.length ∧ row.publicKeyCose.length ≤ 4096) ∧
    0 ≤ row.signCount ∧ (row.quarantined = 0 ∨ row.quarantined = 1)

instance (row : CredentialRow) : Decidable row.Checked := by
  unfold CredentialRow.Checked
  infer_instance

/-- The rows that hold the active slot of their device. -/
def Tables.activeRequests (tables : Tables) : List RequestRow :=
  tables.requests.filter fun row => decide (row.state ∈ ACTIVE_STATES)

/-- The keys, unique indexes, references and checks of the schema. -/
structure Constraints (tables : Tables) : Prop where
  requestKey : Table.Keyed RequestRow.requestId tables.requests
  requestsIdempotency :
    Table.Keyed (fun row => (row.requesterUid, row.operationKey)) tables.requests
  requestsOneActivePerDevice :
    Table.Keyed RequestRow.deviceId tables.activeRequests
  requestChecks : ∀ row ∈ tables.requests, row.Checked
  eventKey : Table.Keyed (fun row => (row.requestId, row.sequence))
    tables.requestEvents
  eventReferences : ∀ row ∈ tables.requestEvents,
    row.requestId ∈ tables.requests.map RequestRow.requestId
  eventChecks : ∀ row ∈ tables.requestEvents, row.Checked
  receiptKey : Table.Keyed ReceiptRow.receiptId tables.receipts
  receiptRequest : Table.Keyed ReceiptRow.requestId tables.receipts
  receiptReferences : ∀ row ∈ tables.receipts,
    row.requestId ∈ tables.requests.map RequestRow.requestId
  receiptChecks : ∀ row ∈ tables.receipts, 0 ≤ row.requesterUid
  identityChecks : ∀ row ∈ tables.brokerIdentity, row.Checked
  metadataChecks : 0 ≤ tables.brokerMetadata.bootEpoch ∧
    0 ≤ tables.brokerMetadata.credentialGeneration
  credentialKey : Table.Keyed CredentialRow.credentialId tables.credentials
  credentialChecks : ∀ row ∈ tables.credentials, row.Checked

instance (tables : Tables) : Decidable (Constraints tables) :=
  decidable_of_iff
    (Table.Keyed RequestRow.requestId tables.requests ∧
      Table.Keyed (fun row => (row.requesterUid, row.operationKey))
        tables.requests ∧
      Table.Keyed RequestRow.deviceId tables.activeRequests ∧
      (∀ row ∈ tables.requests, row.Checked) ∧
      Table.Keyed (fun row => (row.requestId, row.sequence))
        tables.requestEvents ∧
      (∀ row ∈ tables.requestEvents,
        row.requestId ∈ tables.requests.map RequestRow.requestId) ∧
      (∀ row ∈ tables.requestEvents, row.Checked) ∧
      Table.Keyed ReceiptRow.receiptId tables.receipts ∧
      Table.Keyed ReceiptRow.requestId tables.receipts ∧
      (∀ row ∈ tables.receipts,
        row.requestId ∈ tables.requests.map RequestRow.requestId) ∧
      (∀ row ∈ tables.receipts, 0 ≤ row.requesterUid) ∧
      (∀ row ∈ tables.brokerIdentity, row.Checked) ∧
      (0 ≤ tables.brokerMetadata.bootEpoch ∧
        0 ≤ tables.brokerMetadata.credentialGeneration) ∧
      Table.Keyed CredentialRow.credentialId tables.credentials ∧
      (∀ row ∈ tables.credentials, row.Checked))
    ⟨fun ⟨h1, h2, h3, h4, h5, h6, h7, h8, h9, h10, h11, h12, h13, h14, h15⟩ =>
        ⟨h1, h2, h3, h4, h5, h6, h7, h8, h9, h10, h11, h12, h13, h14, h15⟩,
      fun ⟨h1, h2, h3, h4, h5, h6, h7, h8, h9, h10, h11, h12, h13, h14, h15⟩ =>
        ⟨h1, h2, h3, h4, h5, h6, h7, h8, h9, h10, h11, h12, h13, h14, h15⟩⟩

/-- Tables that satisfy the constraints of the schema. -/
structure Database extends Tables where
  constraints : Constraints toTables

namespace Database

theorem ext_tables {first second : Database}
    (h : first.toTables = second.toTables) : first = second := by
  cases first
  cases second
  cases h
  rfl

/-- The database after the migrations. -/
def migrated : Database where
  requests := []
  requestEvents := []
  receipts := []
  brokerIdentity := none
  brokerMetadata := { bootEpoch := 0, credentialGeneration := 0 }
  credentials := []
  constraints := by decide

end Database

/-! ### Transactions -/

/-- A transaction, or a part of one. -/
abbrev Tx (α : Type) := StateT Database (Except BrokerError) α

/-- Reads the tables without changing them. -/
def query {α : Type} (read : Tables → Except BrokerError α) : Tx α :=
  fun database => (read database.toTables).map fun value => (value, database)

/-- A computation that does not use the database. -/
def attempt {α : Type} (computation : Except BrokerError α) : Tx α :=
  query fun _ => computation

/-- Executes a statement; a violated constraint aborts it. -/
def execute (change : Tables → Tables) : Tx Unit := fun database =>
  if h : Constraints (change database.toTables) then
    .ok ((), { toTables := change database.toTables, constraints := h })
  else .error (.sqlite .constraintViolation)

theorem query_eq_ok_iff {α : Type} {read : Tables → Except BrokerError α}
    {before after : Database} {value : α} :
    query read before = .ok (value, after) ↔
      read before.toTables = .ok value ∧ before = after := by
  rw [query, map_eq_ok_iff]
  simp only [Prod.mk.injEq]
  constructor
  · intro h
    obtain ⟨_, hRead, rfl, rfl⟩ := h
    exact ⟨hRead, rfl⟩
  · intro h
    obtain ⟨hRead, rfl⟩ := h
    exact ⟨value, hRead, rfl, rfl⟩

theorem attempt_eq_ok_iff {α : Type} {computation : Except BrokerError α}
    {before after : Database} {value : α} :
    attempt computation before = .ok (value, after) ↔
      computation = .ok value ∧ before = after :=
  query_eq_ok_iff

theorem execute_eq_ok_iff {change : Tables → Tables} {before after : Database}
    {result : Unit} :
    execute change before = .ok (result, after) ↔
      after.toTables = change before.toTables := by
  unfold execute
  by_cases hConstraints : Constraints (change before.toTables)
  · rw [dif_pos hConstraints, Except.ok.injEq, Prod.mk.injEq]
    constructor
    · intro h
      rw [← h.2]
    · intro h
      exact ⟨rfl, Database.ext_tables h.symm⟩
  · rw [dif_neg hConstraints]
    constructor
    · intro h
      cases h
    · intro h
      exact absurd (h ▸ after.constraints) hConstraints

/-! ### Failures of a transaction -/

theorem query_eq_error_iff {α : Type} {read : Tables → Except BrokerError α}
    {before : Database} {fault : BrokerError} :
    query read before = .error fault ↔ read before.toTables = .error fault :=
  map_eq_error_iff

theorem attempt_eq_error_iff {α : Type} {computation : Except BrokerError α}
    {before : Database} {fault : BrokerError} :
    attempt computation before = .error fault ↔ computation = .error fault :=
  query_eq_error_iff

theorem execute_avoids {fault : BrokerError} {change : Tables → Tables}
    (h : fault ≠ .sqlite .constraintViolation) : Avoids fault (execute change) := by
  intro before hError
  unfold execute at hError
  split at hError
  · cases hError
  · exact h (Except.error.inj hError).symm

theorem query_avoids {α : Type} {fault : BrokerError} {read : Tables → Except BrokerError α}
    (h : ∀ database : Database, read database.toTables ≠ .error fault) :
    Avoids fault (query read) :=
  fun before hError => h before (query_eq_error_iff.mp hError)

theorem attempt_avoids {α : Type} {fault : BrokerError}
    {computation : Except BrokerError α} (h : computation ≠ .error fault) :
    Avoids fault (attempt computation) :=
  query_avoids fun _ => h

end Broker
end RootPermit
