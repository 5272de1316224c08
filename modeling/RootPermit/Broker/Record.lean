import RootPermit.Broker.Soundness

/-!
# The lifecycle record

The broker's value object for one request: its bindings, its state, the frozen plan,
the event chain and the unsigned draft of its receipt.  An operation mutates the
record and returns a state or an error; the guard of the operations before execution
may close the record and still return an error.

* `perform_performs` — the moves that an action can make, said once;
* `Coherent.step` — every action keeps the record coherent;
* `record_representation` — what holds of every record that actions can reach.
-/

namespace RootPermit
namespace Broker
namespace Record

open Foundation Protocol

/-! ### The record -/

inductive PlanOutcome where
  | pending (plan : FrozenPlan)
  | noChange (reasonCode : UInt16)
  | invalid (reasonCode : UInt16)
  deriving DecidableEq, Repr

/-- The content of a receipt before it is signed. -/
structure ReceiptDraft where
  receiptId : PublicId
  requestId : PublicId
  requestDigest : Digest
  planDigest : Option Digest
  terminalState : RequestState
  finalEventDigest : Digest
  receiptDigest : Digest
  deriving DecidableEq, Repr

structure VerifiedDecision where
  requestDigest : Digest
  generation : UInt64
  decision : Decision
  assertionDigest : Digest
  deriving DecidableEq, Repr

structure LifecycleRecord where
  requestId : PublicId
  receiptId : PublicId
  requestedPackage : PackageName
  requestDigest : Digest
  generation : UInt64
  deadlineMonoNs : UInt64
  state : RequestState
  plan : Option FrozenPlan
  events : List LifecycleEvent
  receipt : Option ReceiptDraft
  deriving DecidableEq, Repr

inductive LifecycleError where
  | invalidState (state : RequestState)
  | decisionContextMismatch
  | decisionGenerationStale
  | alreadyTerminal
  | receiptNotReady
  | plannerPackageMismatch
  deriving DecidableEq, Repr

/-- What an operation returns, and the record as it leaves it. -/
abbrev Outcome (α : Type) : Type :=
  Except LifecycleError α × LifecycleRecord

/-- The digest of a draft; an absent plan is hashed as zeros. -/
def receiptDigest [Cryptography] (receiptId requestId : PublicId)
    (requestDigest : Digest) (planDigest : Option Digest) (state : RequestState)
    (finalEventDigest : Digest) : Digest :=
  sha256 (utf8 "rootpermit/v1/local-receipt-draft\x00" ++ utf8 receiptId.asStr ++
    utf8 requestId.asStr ++ requestDigest.val ++
    (planDigest.getD (ByteArr.fill 32 0)).val ++ utf8 state.asDb ++
    finalEventDigest.val)

namespace LifecycleRecord

section Operations

variable [Cryptography]

/-- The event that comes next in the chain. -/
def nextEvent (record : LifecycleRecord) (state : RequestState)
    (reason : TransitionReason) : LifecycleEvent :=
  let sequence := saturatingSucc
    ((toU64? record.events.length).getD 0xffffffffffffffff)
  let previousEventDigest := record.events.getLast?.map LifecycleEvent.eventDigest
  let eventDigest := lifecycleEventDigest record.requestId sequence
    previousEventDigest state reason
  { sequence, previousEventDigest, state, reason, eventDigest }

def append (record : LifecycleRecord) (state : RequestState)
    (reason : TransitionReason) : LifecycleRecord :=
  { record with events := record.events ++ [record.nextEvent state reason] }

/-- The plan digest that a receipt names; zeros stand for none. -/
def receiptPlanDigest (record : LifecycleRecord) : Option Digest :=
  record.plan.bind fun plan =>
    if plan.planDigest ≠ ByteArr.fill 32 0 then some plan.planDigest else none

/-- The digest of the last event. -/
def finalEventDigest (record : LifecycleRecord) : Digest :=
  (record.events.getLast?.map LifecycleEvent.eventDigest).getD (ByteArr.fill 32 0)

def makeReceipt (record : LifecycleRecord) : ReceiptDraft where
  receiptId := record.receiptId
  requestId := record.requestId
  requestDigest := record.requestDigest
  planDigest := record.receiptPlanDigest
  terminalState := record.state
  finalEventDigest := record.finalEventDigest
  receiptDigest := Record.receiptDigest record.receiptId record.requestId
    record.requestDigest record.receiptPlanDigest record.state
    record.finalEventDigest

/-- The one way to another state; the source asserts in debug builds that the
lifecycle graph has the edge. -/
def winner (record : LifecycleRecord) (next : RequestState)
    (reason : TransitionReason) : LifecycleRecord :=
  let moved := append { record with state := next } next reason
  if next.isTerminal then { moved with receipt := some moved.makeReceipt } else moved

def stateError (record : LifecycleRecord) : LifecycleError :=
  if record.state.isTerminal then .alreadyTerminal else .invalidState record.state

/-- Expiry and a change of generation win before any operation on an open
request. -/
def preExecutionGuard (record : LifecycleRecord)
    (nowMonoNs activeGeneration : UInt64) : Outcome Unit :=
  if record.state.isTerminal then (.error .alreadyTerminal, record)
  else if (record.state = .pending ∨ record.state = .approved) ∧
      record.deadlineMonoNs ≤ nowMonoNs then
    (.error .alreadyTerminal, record.winner .expired .expired)
  else if (record.state = .pending ∨ record.state = .approved) ∧
      activeGeneration ≠ record.generation then
    (.error .alreadyTerminal, record.winner .stale .generationStale)
  else (.ok (), record)

def new (requestId receiptId : PublicId) (requestedPackage : PackageName)
    (requestDigest : Digest) (generation deadlineMonoNs : UInt64) :
    LifecycleRecord :=
  append
    { requestId, receiptId, requestedPackage, requestDigest, generation,
      deadlineMonoNs, state := .planning, plan := none, events := [],
      receipt := none }
    .planning .created

/-- The state of a record that has just moved. -/
def settled (record : LifecycleRecord) : Outcome RequestState :=
  (.ok record.state, record)

def applyPlan (record : LifecycleRecord) (outcome : PlanOutcome) :
    Outcome RequestState :=
  if record.state ≠ .planning then (.error record.stateError, record)
  else
    match outcome with
    | .pending plan =>
        if plan.packageName ≠ record.requestedPackage then
          (.error .plannerPackageMismatch, record)
        else
          settled (winner { record with plan := some plan } .pending .plannerPending)
    | .noChange _ => settled (record.winner .noChange .plannerNoChange)
    | .invalid _ => settled (record.winner .invalid .plannerInvalid)

def applyVerifiedDecision (record : LifecycleRecord)
    (nowMonoNs activeGeneration : UInt64) (decision : VerifiedDecision) :
    Outcome RequestState :=
  match record.preExecutionGuard nowMonoNs activeGeneration with
  | (.error fault, guarded) => (.error fault, guarded)
  | (.ok (), guarded) =>
      if guarded.state ≠ .pending then (.error guarded.stateError, guarded)
      else if decision.requestDigest ≠ guarded.requestDigest then
        (.error .decisionContextMismatch, guarded)
      else if decision.generation ≠ guarded.generation then
        (.error .decisionGenerationStale, guarded)
      else
        match decision.decision with
        | .approve => settled (guarded.winner .approved .approved)
        | .deny => settled (guarded.winner .denied .denied)

def cancel (record : LifecycleRecord) (nowMonoNs activeGeneration : UInt64) :
    Outcome RequestState :=
  match record.preExecutionGuard nowMonoNs activeGeneration with
  | (.error fault, guarded) => (.error fault, guarded)
  | (.ok (), guarded) =>
      if ¬ (guarded.state = .pending ∨ guarded.state = .approved) then
        (.error guarded.stateError, guarded)
      else settled (guarded.winner .cancelled .cancelled)

def beginExecution (record : LifecycleRecord)
    (nowMonoNs activeGeneration : UInt64) : Outcome RequestState :=
  match record.preExecutionGuard nowMonoNs activeGeneration with
  | (.error fault, guarded) => (.error fault, guarded)
  | (.ok (), guarded) =>
      if guarded.state ≠ .approved then (.error guarded.stateError, guarded)
      else settled (guarded.winner .executing .executionStarted)

def finishExecution (record : LifecycleRecord) (succeeded recoveryRequired : Bool) :
    Outcome RequestState :=
  if record.state ≠ .executing then (.error record.stateError, record)
  else
    match succeeded, recoveryRequired with
    | true, false => settled (record.winner .succeeded .executionSucceeded)
    | false, false => settled (record.winner .failed .executionFailed)
    | false, true => settled (record.winner .recoveryRequired .recoveryRequired)
    | true, true => (.error (.invalidState record.state), record)

def reconcile (record : LifecycleRecord) (succeeded : Bool) : Outcome RequestState :=
  if record.state ≠ .recoveryRequired then (.error record.stateError, record)
  else if succeeded then settled (record.winner .succeeded .reconciledSucceeded)
  else settled (record.winner .failed .reconciledFailed)

end Operations

end LifecycleRecord

/-- A public operation of a record with its arguments. -/
inductive Action where
  | applyPlan (outcome : PlanOutcome)
  | applyVerifiedDecision (nowMonoNs activeGeneration : UInt64)
      (decision : VerifiedDecision)
  | cancel (nowMonoNs activeGeneration : UInt64)
  | beginExecution (nowMonoNs activeGeneration : UInt64)
  | finishExecution (succeeded recoveryRequired : Bool)
  | reconcile (succeeded : Bool)
  deriving DecidableEq, Repr

namespace LifecycleRecord

def perform [Cryptography] (record : LifecycleRecord) :
    Action → Outcome RequestState
  | .applyPlan outcome => record.applyPlan outcome
  | .applyVerifiedDecision nowMonoNs activeGeneration decision =>
      record.applyVerifiedDecision nowMonoNs activeGeneration decision
  | .cancel nowMonoNs activeGeneration => record.cancel nowMonoNs activeGeneration
  | .beginExecution nowMonoNs activeGeneration =>
      record.beginExecution nowMonoNs activeGeneration
  | .finishExecution succeeded recoveryRequired =>
      record.finishExecution succeeded recoveryRequired
  | .reconcile succeeded => record.reconcile succeeded

/-- The record after an action, successful or not. -/
def step [Cryptography] (record : LifecycleRecord) (action : Action) :
    LifecycleRecord :=
  (record.perform action).2

/-- The action returns a state. -/
def Accepts [Cryptography] (record : LifecycleRecord) (action : Action) : Prop :=
  ∃ state, (record.perform action).1 = .ok state

end LifecycleRecord

/-! ### What an action can do -/

section Performs

variable [Cryptography]

/-- The outcome of an action on a record, with the conditions that it was taken
under. -/
inductive Performs (record : LifecycleRecord) :
    Action → Except LifecycleError RequestState → LifecycleRecord → Prop where
  | refused (action : Action) (fault : LifecycleError) :
      Performs record action (.error fault) record
  | lapsed (action : Action) (next : RequestState) (reason : TransitionReason)
      (hOpen : record.state = .pending ∨ record.state = .approved)
      (hNext : next = .expired ∨ next = .stale) :
      Performs record action (.error .alreadyTerminal) (record.winner next reason)
  | planned (plan : FrozenPlan) (hState : record.state = .planning)
      (hPackage : plan.packageName = record.requestedPackage) :
      Performs record (.applyPlan (.pending plan)) (.ok .pending)
        (LifecycleRecord.winner { record with plan := some plan } .pending
          .plannerPending)
  | unplanned (outcome : PlanOutcome) (next : RequestState)
      (reason : TransitionReason) (hState : record.state = .planning)
      (hNext : next = .noChange ∨ next = .invalid)
      (hOutcome : ∀ plan, outcome ≠ .pending plan) :
      Performs record (.applyPlan outcome) (.ok next) (record.winner next reason)
  | decided (nowMonoNs activeGeneration : UInt64) (decision : VerifiedDecision)
      (next : RequestState) (reason : TransitionReason)
      (hState : record.state = .pending) (hNow : nowMonoNs < record.deadlineMonoNs)
      (hActive : activeGeneration = record.generation)
      (hDigest : decision.requestDigest = record.requestDigest)
      (hGeneration : decision.generation = record.generation)
      (hNext : (decision.decision = .approve ∧ next = .approved) ∨
        (decision.decision = .deny ∧ next = .denied)) :
      Performs record
        (.applyVerifiedDecision nowMonoNs activeGeneration decision) (.ok next)
        (record.winner next reason)
  | cancelled (nowMonoNs activeGeneration : UInt64)
      (hOpen : record.state = .pending ∨ record.state = .approved) :
      Performs record (.cancel nowMonoNs activeGeneration) (.ok .cancelled)
        (record.winner .cancelled .cancelled)
  | begun (nowMonoNs activeGeneration : UInt64) (hState : record.state = .approved)
      (hNow : nowMonoNs < record.deadlineMonoNs)
      (hActive : activeGeneration = record.generation) :
      Performs record (.beginExecution nowMonoNs activeGeneration) (.ok .executing)
        (record.winner .executing .executionStarted)
  | finished (succeeded recoveryRequired : Bool) (next : RequestState)
      (reason : TransitionReason) (hState : record.state = .executing)
      (hNext : next = .succeeded ∨ next = .failed ∨ next = .recoveryRequired) :
      Performs record (.finishExecution succeeded recoveryRequired) (.ok next)
        (record.winner next reason)
  | reconciled (succeeded : Bool) (next : RequestState) (reason : TransitionReason)
      (hState : record.state = .recoveryRequired)
      (hNext : next = .succeeded ∨ next = .failed) :
      Performs record (.reconcile succeeded) (.ok next) (record.winner next reason)

variable {record : LifecycleRecord}

@[simp] theorem winner_state (next : RequestState) (reason : TransitionReason) :
    (record.winner next reason).state = next := by
  unfold LifecycleRecord.winner
  split <;> rfl

theorem settled_winner (next : RequestState) (reason : TransitionReason) :
    LifecycleRecord.settled (record.winner next reason) =
      (.ok next, record.winner next reason) := by
  unfold LifecycleRecord.settled
  rw [winner_state]

/-- The guard lets a record through unchanged, and an open one only in time and in
its generation; else it refuses or closes the record. -/
theorem preExecutionGuard_cases (action : Action)
    (nowMonoNs activeGeneration : UInt64) :
    (record.preExecutionGuard nowMonoNs activeGeneration = (.ok (), record) ∧
      (record.state = .pending ∨ record.state = .approved →
        nowMonoNs < record.deadlineMonoNs ∧ activeGeneration = record.generation)) ∨
    ∃ fault guarded,
      record.preExecutionGuard nowMonoNs activeGeneration = (.error fault, guarded) ∧
      Performs record action (.error fault) guarded := by
  unfold LifecycleRecord.preExecutionGuard
  split
  · exact Or.inr ⟨_, _, rfl, .refused action _⟩
  split
  · rename_i hLate
    exact Or.inr ⟨_, _, rfl, .lapsed action _ _ hLate.1 (Or.inl rfl)⟩
  split
  · rename_i hStale
    exact Or.inr ⟨_, _, rfl, .lapsed action _ _ hStale.1 (Or.inr rfl)⟩
  · rename_i hInTime hCurrent
    refine Or.inl ⟨rfl, ?_⟩
    intro hOpen
    exact ⟨UInt64.not_le.mp fun hLate => hInTime ⟨hOpen, hLate⟩,
      not_not.mp fun hOther => hCurrent ⟨hOpen, hOther⟩⟩

theorem applyPlan_performs (outcome : PlanOutcome) :
    Performs record (.applyPlan outcome) (record.applyPlan outcome).1
      (record.applyPlan outcome).2 := by
  unfold LifecycleRecord.applyPlan
  split
  · exact .refused _ _
  rename_i hState
  rw [not_not] at hState
  cases outcome with
  | pending plan =>
      dsimp only
      split
      · exact .refused _ _
      · rename_i hPackage
        rw [settled_winner]
        exact .planned plan hState (not_not.mp hPackage)
  | noChange code =>
      dsimp only
      rw [settled_winner]
      exact .unplanned _ _ _ hState (Or.inl rfl) fun plan => nofun
  | invalid code =>
      dsimp only
      rw [settled_winner]
      exact .unplanned _ _ _ hState (Or.inr rfl) fun plan => nofun

theorem applyVerifiedDecision_performs (nowMonoNs activeGeneration : UInt64)
    (decision : VerifiedDecision) :
    Performs record (.applyVerifiedDecision nowMonoNs activeGeneration decision)
      (record.applyVerifiedDecision nowMonoNs activeGeneration decision).1
      (record.applyVerifiedDecision nowMonoNs activeGeneration decision).2 := by
  unfold LifecycleRecord.applyVerifiedDecision
  rcases preExecutionGuard_cases
      (.applyVerifiedDecision nowMonoNs activeGeneration decision) nowMonoNs
      activeGeneration with ⟨hGuard, hChecked⟩ | ⟨fault, guarded, hGuard, hPerforms⟩
  · rw [hGuard]
    dsimp only
    split
    · exact .refused _ _
    split
    · exact .refused _ _
    split
    · exact .refused _ _
    · rename_i hState hDigest hGeneration
      rw [not_not] at hState hDigest hGeneration
      obtain ⟨hNow, hActive⟩ := hChecked (Or.inl hState)
      split
      · rename_i hDecision
        rw [settled_winner]
        exact .decided _ _ _ _ _ hState hNow hActive hDigest hGeneration
          (Or.inl ⟨hDecision, rfl⟩)
      · rename_i hDecision
        rw [settled_winner]
        exact .decided _ _ _ _ _ hState hNow hActive hDigest hGeneration
          (Or.inr ⟨hDecision, rfl⟩)
  · rw [hGuard]
    exact hPerforms

theorem cancel_performs (nowMonoNs activeGeneration : UInt64) :
    Performs record (.cancel nowMonoNs activeGeneration)
      (record.cancel nowMonoNs activeGeneration).1
      (record.cancel nowMonoNs activeGeneration).2 := by
  unfold LifecycleRecord.cancel
  rcases preExecutionGuard_cases (.cancel nowMonoNs activeGeneration) nowMonoNs
      activeGeneration with ⟨hGuard, -⟩ | ⟨fault, guarded, hGuard, hPerforms⟩
  · rw [hGuard]
    dsimp only
    split
    · exact .refused _ _
    · rename_i hOpen
      rw [settled_winner]
      exact .cancelled _ _ (not_not.mp hOpen)
  · rw [hGuard]
    exact hPerforms

theorem beginExecution_performs (nowMonoNs activeGeneration : UInt64) :
    Performs record (.beginExecution nowMonoNs activeGeneration)
      (record.beginExecution nowMonoNs activeGeneration).1
      (record.beginExecution nowMonoNs activeGeneration).2 := by
  unfold LifecycleRecord.beginExecution
  rcases preExecutionGuard_cases (.beginExecution nowMonoNs activeGeneration)
      nowMonoNs activeGeneration with
      ⟨hGuard, hChecked⟩ | ⟨fault, guarded, hGuard, hPerforms⟩
  · rw [hGuard]
    dsimp only
    split
    · exact .refused _ _
    · rename_i hState
      rw [not_not] at hState
      obtain ⟨hNow, hActive⟩ := hChecked (Or.inr hState)
      rw [settled_winner]
      exact .begun _ _ hState hNow hActive
  · rw [hGuard]
    exact hPerforms

theorem finishExecution_performs (succeeded recoveryRequired : Bool) :
    Performs record (.finishExecution succeeded recoveryRequired)
      (record.finishExecution succeeded recoveryRequired).1
      (record.finishExecution succeeded recoveryRequired).2 := by
  unfold LifecycleRecord.finishExecution
  split
  · exact .refused _ _
  rename_i hState
  rw [not_not] at hState
  -- A success that needs recovery is refused like a wrong state.
  rcases succeeded with _ | _ <;> rcases recoveryRequired with _ | _ <;> dsimp only
  · rw [settled_winner]
    exact .finished _ _ _ _ hState (Or.inr (Or.inl rfl))
  · rw [settled_winner]
    exact .finished _ _ _ _ hState (Or.inr (Or.inr rfl))
  · rw [settled_winner]
    exact .finished _ _ _ _ hState (Or.inl rfl)
  · exact .refused _ _

theorem reconcile_performs (succeeded : Bool) :
    Performs record (.reconcile succeeded) (record.reconcile succeeded).1
      (record.reconcile succeeded).2 := by
  unfold LifecycleRecord.reconcile
  split
  · exact .refused _ _
  rename_i hState
  rw [not_not] at hState
  split
  · rw [settled_winner]
    exact .reconciled _ _ _ hState (Or.inl rfl)
  · rw [settled_winner]
    exact .reconciled _ _ _ hState (Or.inr rfl)

/-- What an action does to a record. -/
theorem perform_performs (record : LifecycleRecord) (action : Action) :
    Performs record action (record.perform action).1 (record.step action) := by
  cases action with
  | applyPlan outcome => exact applyPlan_performs outcome
  | applyVerifiedDecision nowMonoNs activeGeneration decision =>
      exact applyVerifiedDecision_performs nowMonoNs activeGeneration decision
  | cancel nowMonoNs activeGeneration =>
      exact cancel_performs nowMonoNs activeGeneration
  | beginExecution nowMonoNs activeGeneration =>
      exact beginExecution_performs nowMonoNs activeGeneration
  | finishExecution succeeded recoveryRequired =>
      exact finishExecution_performs succeeded recoveryRequired
  | reconcile succeeded => exact reconcile_performs succeeded

end Performs

/-! ### The chain of a record -/

section Chain

variable [Cryptography] {record : LifecycleRecord} {next : RequestState}
  {reason : TransitionReason}

/-- The events are a linked log along the edges of the lifecycle graph, from the
creation of the record to its state. -/
structure Chained (record : LifecycleRecord) : Prop where
  linked : (lifecycleLog record.requestId).Linked record.events
  first : ∃ event, record.events.head? = some event ∧ event.state = .planning ∧
    event.reason = .created
  last : ∃ event, record.events.getLast? = some event ∧ event.state = record.state
  edges : record.events.IsChain fun first second =>
    first.state.permits second.state = true
  length : record.events.length ≤ record.state.rank + 1

theorem winner_events (next : RequestState) (reason : TransitionReason) :
    (record.winner next reason).events =
      record.events ++ [record.nextEvent next reason] := by
  unfold LifecycleRecord.winner
  split <;> rfl

@[simp] theorem winner_requestId (next : RequestState) (reason : TransitionReason) :
    (record.winner next reason).requestId = record.requestId := by
  unfold LifecycleRecord.winner
  split <;> rfl

@[simp] theorem winner_requestedPackage (next : RequestState)
    (reason : TransitionReason) :
    (record.winner next reason).requestedPackage = record.requestedPackage := by
  unfold LifecycleRecord.winner
  split <;> rfl

@[simp] theorem winner_plan (next : RequestState) (reason : TransitionReason) :
    (record.winner next reason).plan = record.plan := by
  unfold LifecycleRecord.winner
  split <;> rfl

/-- A move to a terminal state drafts the receipt; other moves leave it. -/
theorem winner_receipt (next : RequestState) (reason : TransitionReason) :
    (record.winner next reason).receipt =
      if next.isTerminal then some (record.winner next reason).makeReceipt
      else record.receipt := by
  unfold LifecycleRecord.winner
  split <;> rfl

/-- As long as the numbers do not run out, the next event follows the last one. -/
theorem nextEvent_follows (hLinked : (lifecycleLog record.requestId).Linked record.events)
    (hLength : record.events.length + 1 < 2 ^ 64) :
    (lifecycleLog record.requestId).Follows record.events.getLast?
      (record.nextEvent next reason) := by
  have hSmall : (UInt64.ofNat record.events.length).toNat = record.events.length := by
    apply UInt64.toNat_ofNat_of_lt'
    change record.events.length < 2 ^ 64
    omega
  have hCount : toU64? record.events.length =
      some (UInt64.ofNat record.events.length) := by
    rw [toU64?_eq_some_iff, hSmall]
  have hSequence : (record.nextEvent next reason).sequence.toNat =
      record.events.length + 1 := by
    simp only [LifecycleRecord.nextEvent, hCount, Option.getD_some]
    rw [toNat_saturatingSucc (by omega), hSmall]
  refine ⟨?_, rfl, ?_⟩
  · rw [LogFormat.getLast?_position_of_range hLinked.positions]
    simp only [lifecycleLog]
    rw [hSequence]
  · simp only [lifecycleLog, LifecycleRecord.nextEvent]

/-- The first event of a record makes a linked log. -/
theorem linked_append_of_nil (hEvents : record.events = []) :
    (lifecycleLog record.requestId).Linked (record.append next reason).events := by
  have hLinked : (lifecycleLog record.requestId).Linked record.events := by
    rw [hEvents]
    exact LogFormat.linked_nil
  have hLength : record.events.length + 1 < 2 ^ 64 := by
    rw [hEvents]
    decide
  exact LogFormat.linked_concat_iff.mpr
    ⟨hLinked, nextEvent_follows hLinked hLength⟩

theorem Chained.winner (h : Chained record)
    (hEdge : record.state.permits next = true) :
    Chained (record.winner next reason) := by
  obtain ⟨first, hFirst, hCreated⟩ := h.first
  obtain ⟨last, hLast, hState⟩ := h.last
  have hRank := RequestState.rank_lt_of_permits hEdge
  have hBound := next.rank_le
  have hLength := h.length
  refine ⟨?_, ?_, ?_, ?_, ?_⟩
  · rw [winner_events, winner_requestId]
    exact LogFormat.linked_concat_iff.mpr
      ⟨h.linked, nextEvent_follows h.linked (by omega)⟩
  · refine ⟨first, ?_, hCreated⟩
    rw [winner_events, List.head?_append, hFirst]
    rfl
  · refine ⟨record.nextEvent next reason, ?_, (winner_state next reason).symm⟩
    rw [winner_events, List.getLast?_concat]
  · rw [winner_events]
    apply h.edges.append (List.isChain_singleton _)
    intro event hEvent second hSecond
    rw [hLast, Option.mem_some] at hEvent
    rw [List.head?_cons, Option.mem_some] at hSecond
    rw [← hEvent, ← hSecond, hState]
    exact hEdge
  · rw [winner_events, List.length_append, List.length_singleton, winner_state]
    omega

theorem Chained.intact (h : Chained record) :
    IntactChain record.requestId record.state record.events :=
  intact_of_linked h.linked h.first h.last

end Chain

/-! ### Coherent records -/

section Coherent

variable [Cryptography] {record : LifecycleRecord} {action : Action}

/-- The fields of a record agree: the chain, the plan and the receipt. -/
structure Coherent (record : LifecycleRecord) : Prop extends Chained record where
  plan : record.plan.isSome = true ↔ ∃ event ∈ record.events, event.state = .pending
  package : ∀ plan, record.plan = some plan →
    plan.packageName = record.requestedPackage
  receipt : record.receipt =
    if record.state.isTerminal then some record.makeReceipt else none

/-- An action fails and leaves the record as it is, stores the plan of a pending
request, or moves the record along another edge of the graph. -/
theorem Performs.moves {result : Except LifecycleError RequestState}
    {after : LifecycleRecord} (h : Performs record action result after) :
    ((∃ fault, result = .error fault) ∧ after = record) ∨
    (∃ plan, record.state = .planning ∧
      plan.packageName = record.requestedPackage ∧
      after = LifecycleRecord.winner { record with plan := some plan } .pending
        .plannerPending) ∨
    ∃ next reason, record.state.permits next = true ∧ next ≠ .pending ∧
      after = record.winner next reason := by
  cases h with
  | refused _ fault => exact Or.inl ⟨⟨fault, rfl⟩, rfl⟩
  | planned plan hState hPackage =>
      exact Or.inr (Or.inl ⟨plan, hState, hPackage, rfl⟩)
  | lapsed _ next reason hOpen hNext =>
      refine Or.inr (Or.inr ⟨next, reason, ?_, ?_, rfl⟩)
      · rcases hOpen with hOpen | hOpen <;> rcases hNext with rfl | rfl <;>
          rw [hOpen] <;> rfl
      · rcases hNext with rfl | rfl <;> nofun
  | unplanned outcome next reason hState hNext =>
      refine Or.inr (Or.inr ⟨next, reason, ?_, ?_, rfl⟩)
      · rcases hNext with rfl | rfl <;> rw [hState] <;> rfl
      · rcases hNext with rfl | rfl <;> nofun
  | decided _ _ _ next reason hState _ _ _ _ hNext =>
      refine Or.inr (Or.inr ⟨next, reason, ?_, ?_, rfl⟩)
      · rcases hNext with ⟨-, rfl⟩ | ⟨-, rfl⟩ <;> rw [hState] <;> rfl
      · rcases hNext with ⟨-, rfl⟩ | ⟨-, rfl⟩ <;> nofun
  | cancelled _ _ hOpen =>
      refine Or.inr (Or.inr ⟨.cancelled, .cancelled, ?_, nofun, rfl⟩)
      rcases hOpen with hOpen | hOpen <;> rw [hOpen] <;> rfl
  | begun _ _ hState =>
      refine Or.inr (Or.inr ⟨.executing, .executionStarted, ?_, nofun, rfl⟩)
      rw [hState]
      rfl
  | finished _ _ next reason hState hNext =>
      refine Or.inr (Or.inr ⟨next, reason, ?_, ?_, rfl⟩)
      · rcases hNext with rfl | rfl | rfl <;> rw [hState] <;> rfl
      · rcases hNext with rfl | rfl | rfl <;> nofun
  | reconciled _ next reason hState hNext =>
      refine Or.inr (Or.inr ⟨next, reason, ?_, ?_, rfl⟩)
      · rcases hNext with rfl | rfl <;> rw [hState] <;> rfl
      · rcases hNext with rfl | rfl <;> nofun

theorem Coherent.step (record : LifecycleRecord) (action : Action)
    (h : Coherent record) : Coherent (record.step action) := by
  rcases (perform_performs record action).moves with
    ⟨-, hSame⟩ | ⟨plan, hState, hPackage, hAfter⟩ | ⟨next, reason, hEdge, hNext, hAfter⟩
  · rw [hSame]
    exact h
  · rw [hAfter]
    have hReceipt := h.receipt
    rw [hState] at hReceipt
    have hChained : Chained { record with plan := some plan } :=
      ⟨h.linked, h.first, h.last, h.edges, h.length⟩
    have hEdge : record.state.permits .pending = true := by
      rw [hState]
      rfl
    refine ⟨hChained.winner hEdge, ?_, ?_, ?_⟩
    · rw [winner_plan, winner_events]
      refine ⟨fun _ => ?_, fun _ => rfl⟩
      exact ⟨_, List.mem_append_right _ List.mem_cons_self, rfl⟩
    · intro stored hStored
      rw [winner_plan, Option.some.injEq] at hStored
      rw [← hStored, winner_requestedPackage]
      exact hPackage
    · rw [winner_receipt, winner_state]
      exact hReceipt
  · rw [hAfter]
    have hReceipt : record.receipt = none := by
      rw [h.receipt, if_neg]
      intro hClosed
      rw [RequestState.not_permits_of_isTerminal hClosed] at hEdge
      cases hEdge
    refine ⟨h.toChained.winner hEdge, ?_, ?_, ?_⟩
    · rw [winner_plan, winner_events, h.plan]
      constructor
      · rintro ⟨event, hEvent, hPending⟩
        exact ⟨event, List.mem_append_left _ hEvent, hPending⟩
      · rintro ⟨event, hEvent, hPending⟩
        rcases List.mem_append.mp hEvent with hOld | hNew
        · exact ⟨event, hOld, hPending⟩
        · -- The new event is not the one that makes the request pending.
          rw [List.mem_singleton.mp hNew] at hPending
          exact absurd hPending hNext
    · rw [winner_plan, winner_requestedPackage]
      exact h.package
    · rw [winner_receipt, hReceipt, winner_state]

theorem Coherent.new (requestId receiptId : PublicId) (requestedPackage : PackageName)
    (requestDigest : Digest) (generation deadlineMonoNs : UInt64) :
    Coherent (LifecycleRecord.new requestId receiptId requestedPackage requestDigest
      generation deadlineMonoNs) := by
  refine ⟨⟨?_, ⟨_, rfl, rfl, rfl⟩, ⟨_, rfl, rfl⟩, List.isChain_singleton _,
    Nat.le_refl 1⟩, ?_, ?_, rfl⟩
  · exact linked_append_of_nil rfl
  · constructor
    · intro hSome
      cases hSome
    · rintro ⟨event, hEvent, hPending⟩
      rw [List.mem_singleton.mp hEvent] at hPending
      cases hPending
  · intro plan hPlan
    cases hPlan

end Coherent

/-! ### Every reachable record -/

section Reachable

variable [Cryptography] {record : LifecycleRecord}

/-- The draft carries the outcome of a record. -/
structure ReceiptDraft.Carries (draft : ReceiptDraft) (record : LifecycleRecord) :
    Prop where
  terminalState : draft.terminalState = record.state
  finalEvent : ∃ event, record.events.getLast? = some event ∧
    draft.finalEventDigest = event.eventDigest
  receiptId : draft.receiptId = record.receiptId
  requestId : draft.requestId = record.requestId
  requestDigest : draft.requestDigest = record.requestDigest
  planDigest : draft.planDigest = record.receiptPlanDigest
  digest : draft.receiptDigest = Record.receiptDigest draft.receiptId draft.requestId
    draft.requestDigest draft.planDigest draft.terminalState draft.finalEventDigest

/-- How the fields of a record represent its history. -/
structure Representation (record : LifecycleRecord) : Prop where
  chain : IntactChain record.requestId record.state record.events
  edges : ∀ front first second back,
    record.events = front ++ first :: second :: back →
    first.state.permits second.state = true
  plan : record.plan.isSome = true ↔ ∃ event ∈ record.events, event.state = .pending
  package : ∀ plan, record.plan = some plan →
    plan.packageName = record.requestedPackage
  receipt : record.receipt.isSome = true ↔ record.state.isTerminal = true
  draft : ∀ draft, record.receipt = some draft → draft.Carries record
  asserted : ∀ action, record.step action = record ∨
    record.state.permits (record.step action).state = true
  closed : record.state.isTerminal = true → ∀ action, ∃ fault,
    record.perform action = (.error fault, record)

/-- Every move passes the assertion of the source. -/
theorem step_permitted (record : LifecycleRecord) (action : Action) :
    record.step action = record ∨
      record.state.permits (record.step action).state = true := by
  rcases (perform_performs record action).moves with
    ⟨-, hSame⟩ | ⟨_, hState, -, hAfter⟩ | ⟨next, reason, hEdge, -, hAfter⟩
  · exact Or.inl hSame
  · right
    rw [hAfter, winner_state, hState]
    rfl
  · right
    rw [hAfter, winner_state]
    exact hEdge

/-- A closed record refuses every action and stays as it is. -/
theorem perform_of_isTerminal (hClosed : record.state.isTerminal = true)
    (action : Action) : ∃ fault, record.perform action = (.error fault, record) := by
  rcases (perform_performs record action).moves with
    ⟨⟨fault, hFault⟩, hSame⟩ | ⟨_, hState, -⟩ | ⟨next, _, hEdge, -⟩
  · exact ⟨fault, Prod.ext hFault hSame⟩
  · rw [hState] at hClosed
    cases hClosed
  · rw [RequestState.not_permits_of_isTerminal hClosed] at hEdge
    cases hEdge

theorem makeReceipt_carries (h : Chained record) :
    record.makeReceipt.Carries record := by
  obtain ⟨last, hLast, -⟩ := h.last
  refine ⟨rfl, ⟨last, hLast, ?_⟩, rfl, rfl, rfl, rfl, rfl⟩
  simp only [LifecycleRecord.makeReceipt, LifecycleRecord.finalEventDigest, hLast,
    Option.map_some, Option.getD_some]

theorem Coherent.representation (h : Coherent record) : Representation record where
  chain := h.intact
  edges _ _ _ _ hShape :=
    List.isChain_iff_forall_rel_of_append_cons_cons.mp h.edges hShape
  plan := h.plan
  package := h.package
  receipt := by
    rw [h.receipt]
    cases record.state.isTerminal <;> simp
  draft := by
    intro draft hDraft
    rw [h.receipt] at hDraft
    split at hDraft
    · rw [← Option.some.inj hDraft]
      exact makeReceipt_carries h.toChained
    · cases hDraft
  asserted := step_permitted record
  closed := perform_of_isTerminal

theorem step_requestId (record : LifecycleRecord) (action : Action) :
    (record.step action).requestId = record.requestId := by
  rcases (perform_performs record action).moves with
    ⟨-, hSame⟩ | ⟨plan, -, -, hAfter⟩ | ⟨next, reason, -, -, hAfter⟩
  · rw [hSame]
  · rw [hAfter, winner_requestId]
  · rw [hAfter, winner_requestId]

/-- The events of a record are the intact chain of its request. -/
theorem record_intact (requestId receiptId : PublicId)
    (requestedPackage : PackageName) (requestDigest : Digest)
    (generation deadlineMonoNs : UInt64) (actions : List Action) :
    ∃ state, IntactChain requestId state (run LifecycleRecord.step
      (LifecycleRecord.new requestId receiptId requestedPackage requestDigest
        generation deadlineMonoNs) actions).events := by
  have hRun := run_invariant
    (I := fun record => Coherent record ∧ record.requestId = requestId)
    ⟨Coherent.new requestId receiptId requestedPackage requestDigest generation
      deadlineMonoNs, rfl⟩
    (fun record action h => ⟨Coherent.step record action h.1,
      (step_requestId record action).trans h.2⟩) actions
  have hIntact := hRun.1.intact
  rw [hRun.2] at hIntact
  exact ⟨_, hIntact⟩

/-- After any sequence of actions on a new record, its fields represent its
history, and a closed record is final. -/
theorem record_representation (requestId receiptId : PublicId)
    (requestedPackage : PackageName) (requestDigest : Digest)
    (generation deadlineMonoNs : UInt64) (actions : List Action) :
    Representation (run LifecycleRecord.step
      (LifecycleRecord.new requestId receiptId requestedPackage requestDigest
        generation deadlineMonoNs) actions) := by
  have hNew := Coherent.new requestId receiptId requestedPackage requestDigest
    generation deadlineMonoNs
  exact (run_invariant hNew Coherent.step actions).representation

end Reachable

end Record
end Broker
end RootPermit
