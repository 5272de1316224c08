import RootPermit.Hosted.Projection
import RootPermit.Hosted.Uuid

/-!
# The requests that a tenant reads

This module embeds `tenant-context.ts` and `request-repository.ts`.  A query joins the
rows of `request_envelopes`, `devices`, `lifecycle_projections` and
`projection_sync_states`; the tenant is that of the verified session.

A scope carries the texts of the session.  The columns hold uuids, to which the database
casts a text, so the tenant of a transaction is the value of the text.
-/

namespace RootPermit
namespace Hosted

open Foundation

/-! ### Tenant scopes -/

structure VerifiedAccountSession where
  tenantId : String
  accountId : String
  deriving DecidableEq, Repr

def requireUuid (value field : String) : Except String String := do
  rejectIf (isUuid value = false) ("trusted " ++ field ++ " is not a UUID")
  return value

def tenantScopeFromVerifiedSession (session : VerifiedAccountSession) :
    Except String TenantScope := do
  let tenantId ← requireUuid session.tenantId "tenant id"
  let accountId ← requireUuid session.accountId "account id"
  return { tenantId, accountId }

/-- The scope as the database takes it: `set_config` gets the text, and
`current_tenant_id` casts it. -/
def TenantScope.cast (scope : TenantScope) : TenantScope where
  tenantId := uuidText scope.tenantId
  accountId := uuidText scope.accountId

/-! ### The tables -/

/-- The columns of `request_envelopes` that only this repository reads. -/
structure EnvelopeColumnsRow where
  id : String
  tenantId : String
  terminal : Bool
  createdAt : Int
  expiresAt : Int
  deriving DecidableEq, Repr

/-- A row of `devices`. -/
structure DeviceRow where
  id : String
  tenantId : String
  publicId : String
  deriving DecidableEq, Repr

structure ServiceDatabase extends Database where
  envelopeColumns : List EnvelopeColumnsRow
  devices : List DeviceRow

/-- A request with its device. -/
structure RequestRow where
  envelope : RequestEnvelopeRow
  columns : EnvelopeColumnsRow
  device : DeviceRow

def RequestRow.key (row : RequestRow) : RequestKey where
  tenantId := row.envelope.tenantId
  requestEnvelopeId := row.envelope.id

/-- `request_envelopes JOIN devices`. -/
def ServiceDatabase.requestRows (database : ServiceDatabase) : List RequestRow :=
  database.requestEnvelopes.flatMap fun envelope =>
    (database.envelopeColumns.filter fun columns =>
      decide (columns.tenantId = envelope.tenantId ∧ columns.id = envelope.id)).flatMap
    fun columns =>
      (database.devices.filter fun device =>
        decide (device.tenantId = envelope.tenantId ∧ device.id = envelope.deviceId)).map
      fun device => { envelope, columns, device }

/-! ### The repository -/

structure RequestProjection where
  publicId : String
  devicePublicId : String
  projectionState : Option String
  frozenGap : Option Bool
  terminal : Bool
  expiresAt : Int
  deriving DecidableEq, Repr

/-- What a query selects of a request, with its last projection and its sync state. -/
def toProjection (tables : Tables) (row : RequestRow) : RequestProjection :=
  let last := latest (tables.projectionOf row.key)
  let syncState := Table.lookup SyncStateRow.key row.key tables.projectionSyncStates
  { publicId := row.envelope.publicId
    devicePublicId := row.device.publicId
    projectionState := last.map ProjectionRow.state
    frozenGap := some ((syncState.map SyncStateRow.frozenGap).getD
      ((last.map ProjectionRow.frozenGap).getD false))
    terminal := row.columns.terminal
    expiresAt := row.columns.expiresAt }

/-- The requests of the tenant that satisfy a condition. -/
def ServiceDatabase.requestsOf (database : ServiceDatabase) (tenantId : String)
    (condition : RequestRow → Bool) : List RequestRow :=
  database.requestRows.filter fun row =>
    decide (row.envelope.tenantId = tenantId) && condition row

def getByPublicId (scope : TenantScope) (requestPublicId : String)
    (database : ServiceDatabase) : Except String (Option RequestProjection) := do
  requirePublicId requestPublicId
  return (database.requestsOf scope.tenantId fun row =>
    decide (row.envelope.publicId = requestPublicId)).head?.map
      (toProjection database.toTables)

/-- The number of rows to return, from 1 through 100. -/
def Number.asLimit? : Number → Option Nat
  | .integer value => if 1 ≤ value ∧ value ≤ 100 then some value.toNat else none
  | .other => none

/-- The latest requests of a device; those of one time keep the order of the table. -/
def listForDevice (scope : TenantScope) (devicePublicId : String) (limit : Number)
    (database : ServiceDatabase) : Except String (List RequestProjection) := do
  requirePublicId devicePublicId
  let limit ← orFault "limit must be an integer from 1 through 100" limit.asLimit?
  return (((database.requestsOf scope.tenantId fun row =>
    decide (row.device.publicId = devicePublicId)).insertionSort fun first second =>
      second.columns.createdAt ≤ first.columns.createdAt).take limit).map
        (toProjection database.toTables)

/-- Inside a transaction of the tenant; neither the projection nor the sync state is
read. -/
def getScopedRequest (scope : TenantScope) (requestPublicId : String)
    (database : ServiceDatabase) : Except String (Option RequestProjection) := do
  requirePublicId requestPublicId
  return (database.requestsOf scope.tenantId fun row =>
    decide (row.envelope.publicId = requestPublicId)).head?.map fun row =>
      { publicId := row.envelope.publicId
        devicePublicId := row.device.publicId
        projectionState := none
        frozenGap := none
        terminal := row.columns.terminal
        expiresAt := row.columns.expiresAt }

/-! ### Work in a scope -/

/-- What the repositories do for a session. -/
inductive Work where
  | applyVerifiedEvent (event : VerifiedLifecycleEvent)
  | replaceFromVerifiedResync (requestPublicId : String)
      (events : List VerifiedLifecycleEvent)
  | recordVerifiedCeremony (requestPublicId : String)
      (ceremony : VerifiedApprovalCeremony) (decisionPublicId : String)
  | getByPublicId (requestPublicId : String)
  | listForDevice (devicePublicId : String) (limit : Number)
  | getScopedRequest (requestPublicId : String)

inductive Outcome where
  | projected (result : ProjectionApplyResult)
  | replaced
  | recorded (decision : BrokerForwardDecision)
  | request (found : Option RequestProjection)
  | requests (found : List RequestProjection)
  deriving DecidableEq, Repr

/-- A transaction on the tables that are written. -/
def ServiceDatabase.transact {α : Type} (database : ServiceDatabase) (tx : Tx α)
    (outcome : α → Outcome) : Except String (Outcome × ServiceDatabase) :=
  (tx database.toDatabase).map fun done =>
    (outcome done.1, { database with toDatabase := done.2 })

/-- A transaction that reads. -/
def ServiceDatabase.answer {α : Type} (database : ServiceDatabase)
    (read : ServiceDatabase → Except String α) (outcome : α → Outcome) :
    Except String (Outcome × ServiceDatabase) :=
  (read database).map fun value => (outcome value, database)

def Work.perform [Cryptography] (scope : TenantScope) (database : ServiceDatabase) :
    Work → Except String (Outcome × ServiceDatabase)
  | .applyVerifiedEvent event =>
      database.transact (Hosted.applyVerifiedEvent scope event) .projected
  | .replaceFromVerifiedResync requestPublicId events =>
      database.transact (Hosted.replaceFromVerifiedResync scope requestPublicId events)
        fun _ => .replaced
  | .recordVerifiedCeremony requestPublicId ceremony decisionPublicId =>
      database.transact (Hosted.recordVerifiedCeremony scope requestPublicId ceremony
        decisionPublicId) .recorded
  | .getByPublicId requestPublicId =>
      database.answer (Hosted.getByPublicId scope requestPublicId) .request
  | .listForDevice devicePublicId limit =>
      database.answer (Hosted.listForDevice scope devicePublicId limit) .requests
  | .getScopedRequest requestPublicId =>
      database.answer (Hosted.getScopedRequest scope requestPublicId) .request

/-- Work for a session. -/
structure ServiceCall where
  session : VerifiedAccountSession
  work : Work

def ServiceCall.perform [Cryptography] (database : ServiceDatabase) (call : ServiceCall) :
    Except String (Outcome × ServiceDatabase) := do
  let scope ← tenantScopeFromVerifiedSession call.session
  call.work.perform scope.cast database

/-- The database after a call; one that throws changes nothing. -/
def ServiceDatabase.step [Cryptography] (database : ServiceDatabase)
    (call : ServiceCall) : ServiceDatabase :=
  match call.perform database with
  | .ok (_, next) => next
  | .error _ => database

/-- What the caller gets. -/
def ServiceDatabase.outcome [Cryptography] (database : ServiceDatabase)
    (call : ServiceCall) : Except String Outcome :=
  (call.perform database).map Prod.fst

end Hosted
end RootPermit
