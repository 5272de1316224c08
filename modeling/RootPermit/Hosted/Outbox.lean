import RootPermit.Hosted.Projection
import RootPermit.Hosted.Uuid

/-!
# The outbox and its workers

This module embeds the queue of outgoing events of the hosted service: the table of
`0001_tenant_foundation.sql` with the lease columns, the trigger and the claim function
of `0002_outbox_claim_function.sql`; the statements on it of `projection-repository.ts`;
and the worker of `outbox-worker.ts`.

A statement is atomic, as the locks of the database make it.  Between two statements of
a worker anything may happen: each of its steps is a call of its own.  The clock of a
call is arbitrary, so any time may pass between two calls, or none.
-/

namespace RootPermit
namespace Hosted
namespace Outbox

open Foundation

/-! ### Rows -/

/-- A row of `outbox` with the columns of its delivery.  Times are in microseconds. -/
structure Row extends OutboxRow where
  id : String
  attempts : Nat
  visibleAfter : Int
  createdAt : Int
  leasedUntil : Option Int
  leaseGeneration : Nat
  deriving DecidableEq, Repr

structure ClaimedOutboxRow where
  id : String
  tenantId : String
  relationType : String
  relationId : String
  eventType : String
  payloadDigest : Bytes
  leaseGeneration : Nat
  deriving DecidableEq, Repr

/-- The columns that `claim_outbox` returns. -/
def Row.claimed (row : Row) : ClaimedOutboxRow :=
  { row with }

/-- The largest `integer` of the database. -/
def MAX_INTEGER : Nat := 0x7fffffff

/-- The largest `bigint` of the database. -/
def MAX_BIGINT : Nat := 0x7fffffffffffffff

inductive QueueError where
  | invalidParameterValue
  | numericValueOutOfRange
  | uniqueViolation
  | checkViolation
  deriving DecidableEq, Repr

/-! ### Statements of the repository -/

/-- A new row, with the defaults of its columns. -/
def newRow (event : OutboxRow) (id : String) (now : Int) : Row where
  toOutboxRow := event
  id := id
  attempts := 0
  visibleAfter := now
  createdAt := now
  leasedUntil := none
  leaseGeneration := 0

/-- Both rows carry the same deduplication key for the same relation. -/
def Conflicts (first second : OutboxRow) : Prop :=
  first.dedupeKey.isSome = true ∧ first.tenantId = second.tenantId ∧
    first.relationType = second.relationType ∧ first.relationId = second.relationId ∧
    first.dedupeKey = second.dedupeKey

instance (first second : OutboxRow) : Decidable (Conflicts first second) :=
  inferInstanceAs (Decidable (_ ∧ _))

/-- `INSERT INTO outbox`. -/
def insert (event : OutboxRow) (id : String) (now : Int) (rows : List Row) :
    Except QueueError (List Row) := do
  rejectIf (event.payloadDigest.length ≠ 32) .checkViolation
  rejectIf (∃ row ∈ rows, row.id = id ∨ Conflicts event row.toOutboxRow)
    .uniqueViolation
  return rows ++ [newRow event id now]

/-- The trigger on updates of `visible_after`. -/
def releaseOutboxLeaseOnReschedule (old new : Row) : Row :=
  -- A claim changes the lease and not the visibility, so its lease is kept.
  if new.visibleAfter ≠ old.visibleAfter ∧ new.leasedUntil = old.leasedUntil then
    { new with leasedUntil := none }
  else new

/-- The event that asks for a resync of a request. -/
def resyncEvent [Cryptography] (key : RequestKey) (observedDigest : Bytes) :
    OutboxRow where
  tenantId := key.tenantId
  relationType := "request_envelope"
  relationId := key.requestEnvelopeId
  eventType := "projection_resync_requested"
  payloadDigest := resyncDigest key.requestEnvelopeId observedDigest
  dedupeKey := some "projection-resync"

/-- The second statement of `freezeAndQueueResync`: the row of an earlier resync request
is made visible again. -/
def queueResync [Cryptography] (key : RequestKey) (observedDigest : Bytes)
    (id : String) (now : Int) (rows : List Row) : Except QueueError (List Row) :=
  if ∃ row ∈ rows, row.AsksResync key then
    .ok (Table.update (fun row => decide (row.AsksResync key))
      (fun row => releaseOutboxLeaseOnReschedule row { row with visibleAfter := now })
      rows)
  else insert (resyncEvent key observedDigest) id now rows

/-- The last statement of `replaceFromVerifiedResync`. -/
def clearResync (key : RequestKey) (rows : List Row) : List Row :=
  rows.filter fun row => decide (¬ row.AsksResync key)

/-! ### Claiming -/

/-- What `clock_timestamp()` returned while the statement was at a row. -/
structure ClockReadings where
  visible : String → Int
  lease : String → Int
  claimed : String → Int

/-- The row is due, and nobody holds a lease of it. -/
def Claimable (clock : ClockReadings) (row : Row) : Prop :=
  row.visibleAfter ≤ clock.visible row.id ∧
    ∀ deadline ∈ row.leasedUntil, deadline ≤ clock.lease row.id

instance (clock : ClockReadings) (row : Row) : Decidable (Claimable clock row) :=
  inferInstanceAs (Decidable (_ ∧ _))

/-- `ORDER BY visible_after, created_at, id`. -/
def Precedes (first second : Row) : Prop :=
  first.visibleAfter < second.visibleAfter ∨
    (first.visibleAfter = second.visibleAfter ∧
      (first.createdAt < second.createdAt ∨
        (first.createdAt = second.createdAt ∧ first.id ≤ second.id)))

instance : DecidableRel Precedes :=
  fun _ _ => inferInstanceAs (Decidable (_ ∨ _))

/-- The first rows that can be claimed; rows that others have locked are skipped. -/
def candidates (limit : Nat) (locked : List String) (clock : ClockReadings)
    (rows : List Row) : List Row :=
  ((rows.filter fun row => decide (Claimable clock row ∧ row.id ∉ locked)).insertionSort
    Precedes).take limit

/-- A lease lasts five minutes. -/
def lease (clock : ClockReadings) (row : Row) : Row :=
  { row with
    leasedUntil := some (clock.claimed row.id + 300000000)
    leaseGeneration := row.leaseGeneration + 1 }

def claimOutbox (limit : Int) (locked : List String) (clock : ClockReadings)
    (rows : List Row) : Except QueueError (List ClaimedOutboxRow × List Row) := do
  rejectIf (limit < 1 ∨ 100 < limit) .invalidParameterValue
  let chosen := candidates limit.toNat locked clock rows
  -- The statement increments the generation of every chosen row, or of none.
  rejectIf (∃ row ∈ chosen, MAX_BIGINT ≤ row.leaseGeneration) .numericValueOutOfRange
  return (chosen.map fun row => (lease clock row).claimed,
    Table.update (fun row => decide (row.id ∈ chosen.map Row.id)) (lease clock) rows)

/-! ### Checks of a claimed row -/

def isLower (char : Char) : Bool :=
  decide ('a' ≤ char ∧ char ≤ 'z')

def isLabel (value : String) : Bool :=
  match value.toList with
  | [] => false
  | first :: rest =>
      isLower first && decide (rest.length ≤ 63) &&
        rest.all fun char => isLower char || decide ('0' ≤ char ∧ char ≤ '9') ||
          decide (char ∈ [ '_', '.', '-'])

def requireUuid (value name : String) : Except String Unit :=
  rejectIf (isUuid value = false) (name ++ " must be a UUID")

def requireLabel (value name : String) : Except String Unit :=
  rejectIf (isLabel value = false) (name ++ " is not a bounded safe label")

def requireLeaseGeneration (value : Nat) : Except String Unit :=
  rejectIf (MAX_SAFE_INTEGER < value ∨ value < 1)
    "outbox lease generation must be a positive safe integer"

/-- The item that is delivered has the fields of the row. -/
def claimedItem (row : ClaimedOutboxRow) : Except String ClaimedOutboxRow := do
  rejectIf (row.payloadDigest.length ≠ 32)
    "claimed outbox payload digest must be SHA-256"
  requireUuid row.id "outbox id"
  requireUuid row.tenantId "outbox tenant id"
  requireLabel row.relationType "relation type"
  requireUuid row.relationId "relation id"
  requireLabel row.eventType "event type"
  requireLeaseGeneration row.leaseGeneration
  return row

/-! ### Statements of a worker -/

/-- The guard of both statements of a worker, in a transaction of this tenant. -/
def Guarded (tenantId : String) (item : ClaimedOutboxRow) (row : Row) : Prop :=
  row.tenantId = tenantId ∧ row.id = item.id ∧ row.relationType = item.relationType ∧
    row.relationId = item.relationId ∧ row.eventType = item.eventType ∧
    row.leaseGeneration = item.leaseGeneration

instance (tenantId : String) (item : ClaimedOutboxRow) (row : Row) :
    Decidable (Guarded tenantId item row) :=
  inferInstanceAs (Decidable (_ ∧ _))

/-- Runs a statement in a transaction whose tenant is the one of the item. -/
def withClaimTenant {α : Type} (item : ClaimedOutboxRow) (work : String → α) : α :=
  work item.tenantId

/-- The deleted identifiers, and the rows that are left. -/
def deleteClaimed (item : ClaimedOutboxRow) (rows : List Row) :
    List String × List Row :=
  withClaimTenant item fun tenantId =>
    ((rows.filter fun row => decide (Guarded tenantId item row)).map Row.id,
      rows.filter fun row => decide (¬ Guarded tenantId item row))

def postpone (now retryAfterMs : Int) (row : Row) : Row :=
  releaseOutboxLeaseOnReschedule row
    { row with
      attempts := row.attempts + 1
      visibleAfter := now + retryAfterMs * 1000 }

def rescheduleClaimed (item : ClaimedOutboxRow) (now retryAfterMs : Int)
    (rows : List Row) : Except QueueError (List Row) :=
  withClaimTenant item fun tenantId => do
    -- Only the attempts of a guarded row are incremented.
    rejectIf (∃ row ∈ rows, Guarded tenantId item row ∧ MAX_INTEGER ≤ row.attempts)
      .numericValueOutOfRange
    return Table.update (fun row => decide (Guarded tenantId item row))
      (postpone now retryAfterMs) rows

/-! ### The worker -/

/-- What was thrown, and its `retryAfterMs` when that is a number. -/
structure Thrown where
  message : String
  retryAfterMs : Option Number
  deriving DecidableEq, Repr

def retryDelay (error : Thrown) : Int :=
  match error.retryAfterMs with
  | some (.integer delay) => if 1000 ≤ delay ∧ delay ≤ 300000 then delay else 60000
  -- No delay, or one that is not an integer.
  | _ => 60000

/-- Where `runOnce` stands with the row at its position. -/
inductive Phase where
  | next
  | delivered
  | failed (retryAfterMs : Int)
  | rejected (message : String)
  deriving DecidableEq, Repr

/-- One execution of `runOnce` after its claim. -/
structure RunOnce where
  claimed : List ClaimedOutboxRow
  position : Nat
  phase : Phase
  completed : List String
  deriving DecidableEq, Repr

namespace RunOnce

/-- The row that the loop is at. -/
def current? (run : RunOnce) : Option ClaimedOutboxRow :=
  run.claimed[run.position]?

/-- The loop goes on with the next row. -/
def advance (run : RunOnce) : RunOnce :=
  { run with position := run.position + 1, phase := .next }

/-- The check of the next row and its delivery. -/
def deliver (run : RunOnce) (outcome : Except Thrown Unit) : RunOnce :=
  match run.phase, run.current? with
  | .next, some row =>
      match claimedItem row, outcome with
      -- The check stands before the `try`: its error ends the whole `runOnce`.
      | .error message, _ => { run with phase := .rejected message }
      | .ok _, .ok () => { run with phase := .delivered }
      | .ok _, .error thrown => { run with phase := .failed (retryDelay thrown) }
  | _, _ => run

/-- How a transaction ends; the answer to a commit may be lost. -/
inductive TransactionEnd where
  | committed
  | rolledBack (thrown : Thrown)
  | unanswered (thrown : Thrown)
  deriving DecidableEq, Repr

def complete (run : RunOnce) (ending : TransactionEnd) (rows : List Row) :
    RunOnce × List Row :=
  match run.phase, run.current? with
  | .delivered, some item =>
      let (deleted, rest) := deleteClaimed item rows
      match ending with
      -- Under a newer lease the row has another generation, and stays.
      | .committed =>
          ({ run.advance with
              completed := if deleted.length = 1 then run.completed ++ [item.id]
                else run.completed },
            rest)
      -- The completion is inside the `try`: its error is handled as one of the delivery.
      | .rolledBack thrown => ({ run with phase := .failed (retryDelay thrown) }, rows)
      -- The deletion took place all the same; rescheduling will find no row.
      | .unanswered thrown => ({ run with phase := .failed (retryDelay thrown) }, rest)
  | _, _ => (run, rows)

/-- A failure to reschedule is not caught. -/
def reschedule (run : RunOnce) (now : Int) (ending : TransactionEnd)
    (rows : List Row) : RunOnce × List Row :=
  match run.phase, run.current? with
  | .failed retryAfterMs, some item =>
      match rescheduleClaimed item now retryAfterMs rows, ending with
      | .error _, _ => ({ run with phase := .rejected "integer out of range" }, rows)
      | .ok changed, .committed => (run.advance, changed)
      | .ok _, .rolledBack thrown =>
          ({ run with phase := .rejected thrown.message }, rows)
      | .ok changed, .unanswered thrown =>
          ({ run with phase := .rejected thrown.message }, changed)
  | _, _ => (run, rows)

/-- What `runOnce` returns, once it returns. -/
def returned? (run : RunOnce) : Option (List String) :=
  if run.phase = .next ∧ run.claimed.length ≤ run.position then some run.completed
  else none

end RunOnce

/-! ### All workers and the repository -/

/-- The table, the random identifiers that were drawn, and every `runOnce` in the order
of their claims. -/
structure System where
  rows : List Row
  drawn : List String
  runs : List RunOnce

inductive Call where
  | enqueue (event : OutboxRow) (id : String) (now : Int)
  | freeze (key : RequestKey) (observedDigest : Bytes) (id : String) (now : Int)
  | replace (key : RequestKey)
  | claim (limit : Number) (locked : List String) (clock : ClockReadings)
  | deliver (index : Nat) (outcome : Except Thrown Unit)
  | complete (index : Nat) (ending : RunOnce.TransactionEnd)
  | reschedule (index : Nat) (now : Int) (ending : RunOnce.TransactionEnd)

namespace System

def empty : System where
  rows := []
  drawn := []
  runs := []

/-- A statement with a new random identifier; `randomUUID` does not repeat one. -/
def withUuid (system : System) (id : String)
    (statement : List Row → Except QueueError (List Row)) : System :=
  if id ∈ system.drawn then system
  else
    { system with
      drawn := id :: system.drawn
      rows :=
        match statement system.rows with
        | .ok rows => rows
        | .error _ => system.rows }

/-- The first statement of `runOnce`. -/
def claim (system : System) (limit : Number) (locked : List String)
    (clock : ClockReadings) : System :=
  match limit with
  -- A limit that is not an integer is refused before the database is asked.
  | .other => system
  | .integer limit =>
      match claimOutbox limit locked clock system.rows with
      | .error _ => system
      | .ok (claimed, rows) =>
          { system with
            rows
            runs := system.runs ++
              [{ claimed, position := 0, phase := .next, completed := [] }] }

/-- A step of one `runOnce`. -/
def withRun (system : System) (index : Nat)
    (work : RunOnce → List Row → RunOnce × List Row) : System :=
  match system.runs[index]? with
  | none => system
  | some run =>
      let (changed, rows) := work run system.rows
      { system with rows, runs := system.runs.set index changed }

def step [Cryptography] (system : System) : Call → System
  | .enqueue event id now => system.withUuid id (insert event id now)
  | .freeze key observedDigest id now =>
      system.withUuid id (queueResync key observedDigest id now)
  | .replace key => { system with rows := clearResync key system.rows }
  | .claim limit locked clock => system.claim limit locked clock
  | .deliver index outcome =>
      system.withRun index fun run rows => (run.deliver outcome, rows)
  | .complete index ending => system.withRun index fun run => run.complete ending
  | .reschedule index now ending =>
      system.withRun index fun run => run.reschedule now ending

end System

end Outbox
end Hosted
end RootPermit
