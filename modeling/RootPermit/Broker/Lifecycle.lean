import RootPermit.Broker.Intake

/-!
# Lifecycle states, reasons and events

The states of a request, the edges of the lifecycle graph, the audit reasons of
transitions and the digest that links an event to its predecessor.
-/

namespace RootPermit
namespace Broker

open Foundation Protocol

inductive RequestState where
  | planning
  | pending
  | approved
  | executing
  | noChange
  | invalid
  | denied
  | expired
  | cancelled
  | stale
  | succeeded
  | failed
  | recoveryRequired
  deriving DecidableEq, Repr

namespace RequestState

/-- The states that close a request. -/
def isTerminal : RequestState → Bool
  | .noChange | .invalid | .denied | .expired | .cancelled | .stale
  | .succeeded | .failed => true
  | _ => false

/-- The edges of the lifecycle graph. -/
def permits : RequestState → RequestState → Bool
  | .planning, .pending | .planning, .noChange | .planning, .invalid => true
  | .pending, .approved | .pending, .denied | .pending, .expired
  | .pending, .cancelled | .pending, .stale => true
  | .approved, .executing | .approved, .cancelled | .approved, .stale
  | .approved, .expired => true
  | .executing, .succeeded | .executing, .failed
  | .executing, .recoveryRequired => true
  | .recoveryRequired, .succeeded | .recoveryRequired, .failed => true
  | _, _ => false

def asDb : RequestState → String
  | .planning => "planning"
  | .pending => "pending"
  | .approved => "approved"
  | .executing => "executing"
  | .noChange => "no_change"
  | .invalid => "invalid"
  | .denied => "denied"
  | .expired => "expired"
  | .cancelled => "cancelled"
  | .stale => "stale"
  | .succeeded => "succeeded"
  | .failed => "failed"
  | .recoveryRequired => "recovery_required"

def fromDb? (value : String) : Option RequestState :=
  match value with
  | "planning" => some .planning
  | "pending" => some .pending
  | "approved" => some .approved
  | "executing" => some .executing
  | "no_change" => some .noChange
  | "invalid" => some .invalid
  | "denied" => some .denied
  | "expired" => some .expired
  | "cancelled" => some .cancelled
  | "stale" => some .stale
  | "succeeded" => some .succeeded
  | "failed" => some .failed
  | "recovery_required" => some .recoveryRequired
  | _ => none

@[simp] theorem fromDb?_asDb (state : RequestState) :
    fromDb? state.asDb = some state := by
  cases state <;> rfl

theorem asDb_injective {first second : RequestState} (h : first.asDb = second.asDb) :
    first = second := by
  have hRead := congrArg fromDb? h
  rw [fromDb?_asDb, fromDb?_asDb] at hRead
  exact Option.some.inj hRead

/-- The number of transitions after which a state can first be reached; every
edge of the graph goes up. -/
def rank : RequestState → Nat
  | .planning => 0
  | .pending => 1
  | .approved => 2
  | .executing => 3
  | .recoveryRequired => 4
  | _ => 5

theorem rank_lt_of_permits {source target : RequestState}
    (h : source.permits target = true) : source.rank < target.rank := by
  cases source <;> cases target <;> first | decide | cases h

theorem not_permits_of_isTerminal {source target : RequestState}
    (h : source.isTerminal = true) : source.permits target = false := by
  cases source <;> first | rfl | cases h

end RequestState

/-- The code of a terminal state in a receipt. -/
def receiptStateCode : RequestState → UInt64
  | .noChange => 1
  | .invalid => 2
  | .denied => 3
  | .expired => 4
  | .cancelled => 5
  | .stale => 6
  | .succeeded => 7
  | .failed => 8
  | .recoveryRequired => 9
  | .planning | .pending | .approved | .executing => 0

inductive TransitionReason where
  | created
  | plannerPending
  | plannerNoChange
  | plannerInvalid
  | approved
  | denied
  | expired
  | cancelled
  | generationStale
  | executionStarted
  | executionSucceeded
  | executionFailed
  | recoveryRequired
  | reconciledSucceeded
  | reconciledFailed
  deriving DecidableEq, Repr

namespace TransitionReason

def code : TransitionReason → UInt64
  | .created => 1
  | .plannerPending => 2
  | .plannerNoChange => 3
  | .plannerInvalid => 4
  | .approved => 5
  | .denied => 6
  | .expired => 7
  | .cancelled => 8
  | .generationStale => 9
  | .executionStarted => 10
  | .executionSucceeded => 11
  | .executionFailed => 12
  | .recoveryRequired => 13
  | .reconciledSucceeded => 14
  | .reconciledFailed => 15

/-- `transition_reason_from_code`. -/
def fromCode? (value : Int64) : Option TransitionReason :=
  match value.toInt with
  | 1 => some .created
  | 2 => some .plannerPending
  | 3 => some .plannerNoChange
  | 4 => some .plannerInvalid
  | 5 => some .approved
  | 6 => some .denied
  | 7 => some .expired
  | 8 => some .cancelled
  | 9 => some .generationStale
  | 10 => some .executionStarted
  | 11 => some .executionSucceeded
  | 12 => some .executionFailed
  | 13 => some .recoveryRequired
  | 14 => some .reconciledSucceeded
  | 15 => some .reconciledFailed
  | _ => none

/-- The `INTEGER` stored for a reason. -/
def asDb (reason : TransitionReason) : Int64 :=
  Int64.ofNat reason.code.toNat

@[simp] theorem fromCode?_asDb (reason : TransitionReason) :
    fromCode? reason.asDb = some reason := by
  cases reason <;> rfl

theorem code_injective {first second : TransitionReason}
    (h : first.code = second.code) : first = second := by
  have hStored : first.asDb = second.asDb := by
    unfold asDb
    rw [h]
  have hRead := congrArg fromCode? hStored
  rw [fromCode?_asDb, fromCode?_asDb] at hRead
  exact Option.some.inj hRead

end TransitionReason

def transitionReason : RequestState → TransitionReason
  | .planning => .created
  | .pending => .plannerPending
  | .noChange => .plannerNoChange
  | .invalid => .plannerInvalid
  | .approved => .approved
  | .denied => .denied
  | .expired => .expired
  | .cancelled => .cancelled
  | .stale => .generationStale
  | .executing => .executionStarted
  | .succeeded => .executionSucceeded
  | .failed => .executionFailed
  | .recoveryRequired => .recoveryRequired

/-- A local lifecycle event, linked to its predecessor by digest. -/
structure LifecycleEvent where
  sequence : UInt64
  previousEventDigest : Option Digest
  state : RequestState
  reason : TransitionReason
  eventDigest : Digest
  deriving DecidableEq, Repr

/-- The digest of an event; an absent predecessor is hashed as zeros. -/
def lifecycleEventDigest [Cryptography] (requestId : PublicId)
    (sequence : UInt64) (previousEventDigest : Option Digest)
    (state : RequestState) (reason : TransitionReason) : Digest :=
  sha256 (utf8 "rootpermit/v1/local-lifecycle-event\x00" ++
    utf8 requestId.asStr ++ beBytes 8 sequence.toNat ++
    (previousEventDigest.getD (ByteArr.fill 32 0)).val ++ utf8 state.asDb ++
    beBytes 8 reason.code.toNat)

def inputDigest [Cryptography] (packageName : PackageName) : Digest :=
  sha256 (utf8 "rootpermit/v1/package-install-input\x00" ++
    utf8 packageName.asStr)

end Broker
end RootPermit
