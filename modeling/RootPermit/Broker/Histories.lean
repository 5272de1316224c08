import RootPermit.Broker.Record

/-!
# The histories of the record

The lifecycle is a graph whose edges carry the reasons of the moves.  A history of a
request is a linked chain of events along it.  The record is the value that decides every
race of the lifecycle; its histories are those of the graph, neither more nor less, as far
as it has the time for them (`Record.record_histories_iff`).

* `History.cases_concat` — a history is that of a new request or ends with a move;
* `Record.step_stepsTo` — an action adds at most one move to the history of a record;
* `Record.advances_actionFor` — every move is made by an action.
-/

namespace RootPermit
namespace Broker

open Foundation Protocol

/-! ### The lifecycle -/

/-- The moves of the lifecycle: the state to which a reason takes a request. -/
def lifecycleMove : RequestState → TransitionReason → Option RequestState
  | .planning, .plannerPending => some .pending
  | .planning, .plannerNoChange => some .noChange
  | .planning, .plannerInvalid => some .invalid
  | .pending, .approved => some .approved
  | .pending, .denied => some .denied
  | .pending, .expired | .approved, .expired => some .expired
  | .pending, .cancelled | .approved, .cancelled => some .cancelled
  | .pending, .generationStale | .approved, .generationStale => some .stale
  | .approved, .executionStarted => some .executing
  | .executing, .executionSucceeded => some .succeeded
  | .executing, .executionFailed => some .failed
  | .executing, .recoveryRequired => some .recoveryRequired
  | .recoveryRequired, .reconciledSucceeded => some .succeeded
  | .recoveryRequired, .reconciledFailed => some .failed
  | _, _ => none

theorem permits_of_lifecycleMove {source target : RequestState}
    {reason : TransitionReason} (h : lifecycleMove source reason = some target) :
    source.permits target = true := by
  cases source <;> cases reason <;> cases h <;> rfl

/-- Two events record a move of the lifecycle. -/
def Documented (first second : LifecycleEvent) : Prop :=
  lifecycleMove first.state second.reason = some second.state

/-- A linked chain from the creation of a request along the lifecycle. -/
structure History [Cryptography] (requestId : PublicId) (events : List LifecycleEvent) :
    Prop where
  linked : (lifecycleLog requestId).Linked events
  first : ∃ event, events.head? = some event ∧ event.state = .planning ∧
    event.reason = .created
  moves : events.IsChain Documented

section Histories

variable [Cryptography] {requestId : PublicId} {events : List LifecycleEvent}
  {event : LifecycleEvent}

/-- The place, the state and the reason of an event determine it. -/
theorem LifecycleEvent.eq_of_follows {before : Option LifecycleEvent}
    {first second : LifecycleEvent}
    (hFirst : (lifecycleLog requestId).Follows before first)
    (hSecond : (lifecycleLog requestId).Follows before second)
    (hState : first.state = second.state) (hReason : first.reason = second.reason) :
    first = second := by
  have hSequence : first.sequence = second.sequence :=
    UInt64.toNat_inj.mp (hFirst.position.trans hSecond.position.symm)
  have hPrevious : first.previousEventDigest = second.previousEventDigest :=
    hFirst.previous.trans hSecond.previous.symm
  have hDigest : first.eventDigest = second.eventDigest := by
    have hComputed := hFirst.digest
    have hComputed' := hSecond.digest
    simp only [lifecycleLog] at hComputed hComputed'
    rw [hComputed, hComputed', hSequence, hPrevious, hState, hReason]
  cases first
  cases second
  simp only at hSequence hPrevious hState hReason hDigest
  subst hSequence hPrevious hState hReason hDigest
  rfl

/-- A history is extended by the event of a move. -/
theorem History.concat {last : LifecycleEvent} (h : History requestId events)
    (hLast : events.getLast? = some last) (hMove : Documented last event)
    (hFollows : (lifecycleLog requestId).Follows events.getLast? event) :
    History requestId (events ++ [event]) := by
  obtain ⟨first, hFirst, hCreated⟩ := h.first
  refine ⟨LogFormat.linked_concat_iff.mpr ⟨h.linked, hFollows⟩, ⟨first, ?_, hCreated⟩,
    h.moves.append (List.isChain_singleton event) ?_⟩
  · rw [List.head?_append, hFirst, Option.some_or]
  · intro before hBefore after hAfter
    rw [hLast, Option.mem_some] at hBefore
    rw [List.head?_cons, Option.mem_some] at hAfter
    rw [← hBefore, ← hAfter]
    exact hMove

/-- A history is the one of a new request, or it ends with a move. -/
theorem History.cases_concat (h : History requestId (events ++ [event])) :
    (events = [] ∧ event.state = .planning ∧ event.reason = .created) ∨
      ∃ last, events.getLast? = some last ∧ History requestId events ∧
        Documented last event := by
  obtain ⟨first, hFirst, hCreated⟩ := h.first
  cases hLast : events.getLast? with
  | none =>
      rw [List.getLast?_eq_none_iff] at hLast
      subst hLast
      rw [List.nil_append, List.head?_cons, Option.some.injEq] at hFirst
      subst hFirst
      exact .inl ⟨rfl, hCreated⟩
  | some last =>
      right
      have hMoves := List.isChain_append.mp h.moves
      refine ⟨last, rfl, ⟨(LogFormat.linked_concat_iff.mp h.linked).1, ⟨first, ?_,
        hCreated⟩, hMoves.1⟩, hMoves.2.2 last hLast event rfl⟩
      rw [List.head?_append] at hFirst
      cases hHead : events.head? with
      | none =>
          rw [List.head?_eq_none_iff] at hHead
          subst hHead
          cases hLast
      | some head =>
          rw [hHead, Option.some_or] at hFirst
          exact hFirst

end Histories

/-! ### The histories of a record -/

namespace Record

section Moves

variable [Cryptography] {record after : LifecycleRecord}

/-- What the operations of a record never change. -/
def LifecycleRecord.bindings (record : LifecycleRecord) :
    PublicId × PackageName × Digest × UInt64 × UInt64 :=
  (record.requestId, record.requestedPackage, record.requestDigest, record.generation,
    record.deadlineMonoNs)

/-- A record has made one move of the lifecycle. -/
def Advances (record : LifecycleRecord) (reason : TransitionReason)
    (after : LifecycleRecord) : Prop :=
  lifecycleMove record.state reason = some after.state ∧
    after.bindings = record.bindings ∧
    after.events = record.events ++ [record.nextEvent after.state reason]

theorem advances_winner {next : RequestState} {reason : TransitionReason}
    (h : lifecycleMove record.state reason = some next) :
    Advances record reason (record.winner next reason) := by
  refine ⟨?_, ?_, ?_⟩
  · rw [winner_state]
    exact h
  · unfold LifecycleRecord.winner
    split <;> rfl
  · rw [winner_events, winner_state]

/-- An action changes nothing in the history of a record, or adds one move to it. -/
def StepsTo (record after : LifecycleRecord) : Prop :=
  (after.state = record.state ∧ after.bindings = record.bindings ∧
    after.events = record.events) ∨ ∃ reason, Advances record reason after

theorem StepsTo.refl : StepsTo record record :=
  .inl ⟨rfl, rfl, rfl⟩

theorem stepsTo_settled {next : RequestState} {reason : TransitionReason}
    (h : lifecycleMove record.state reason = some next) :
    StepsTo record (LifecycleRecord.settled (record.winner next reason)).2 :=
  .inr ⟨reason, advances_winner h⟩

theorem applyPlan_stepsTo (outcome : PlanOutcome) :
    StepsTo record (record.applyPlan outcome).2 := by
  unfold LifecycleRecord.applyPlan
  split
  · exact .refl
  rename_i hState
  rw [not_not] at hState
  cases outcome with
  | pending plan =>
      dsimp only
      split
      · exact .refl
      · -- The plan is not part of the history.
        have hPlanned : Advances { record with plan := some plan } .plannerPending
            (LifecycleRecord.winner { record with plan := some plan } .pending
              .plannerPending) := advances_winner (by rw [hState]; rfl)
        exact .inr ⟨.plannerPending, hPlanned⟩
  | noChange code => exact stepsTo_settled (by rw [hState]; rfl)
  | invalid code => exact stepsTo_settled (by rw [hState]; rfl)

/-- The guard lets the record through, or it closes it at most. -/
theorem preExecutionGuard_stepsTo (nowMonoNs activeGeneration : UInt64) :
    record.preExecutionGuard nowMonoNs activeGeneration = (.ok (), record) ∨
      ∃ fault guarded,
        record.preExecutionGuard nowMonoNs activeGeneration = (.error fault, guarded) ∧
        StepsTo record guarded := by
  unfold LifecycleRecord.preExecutionGuard
  split
  · exact .inr ⟨_, _, rfl, .refl⟩
  split
  · rename_i hLate
    refine .inr ⟨_, _, rfl, .inr ⟨.expired, advances_winner ?_⟩⟩
    rcases hLate.1 with hState | hState <;> rw [hState] <;> rfl
  split
  · rename_i hStale
    refine .inr ⟨_, _, rfl, .inr ⟨.generationStale, advances_winner ?_⟩⟩
    rcases hStale.1 with hState | hState <;> rw [hState] <;> rfl
  · exact .inl rfl

theorem applyVerifiedDecision_stepsTo (nowMonoNs activeGeneration : UInt64)
    (decision : VerifiedDecision) :
    StepsTo record
      (record.applyVerifiedDecision nowMonoNs activeGeneration decision).2 := by
  unfold LifecycleRecord.applyVerifiedDecision
  rcases preExecutionGuard_stepsTo nowMonoNs activeGeneration with
    hGuard | ⟨fault, guarded, hGuard, hSteps⟩
  · rw [hGuard]
    dsimp only
    split
    · exact .refl
    rename_i hState
    rw [not_not] at hState
    split
    · exact .refl
    split
    · exact .refl
    split <;> exact stepsTo_settled (by rw [hState]; rfl)
  · rw [hGuard]
    exact hSteps

theorem cancel_stepsTo (nowMonoNs activeGeneration : UInt64) :
    StepsTo record (record.cancel nowMonoNs activeGeneration).2 := by
  unfold LifecycleRecord.cancel
  rcases preExecutionGuard_stepsTo nowMonoNs activeGeneration with
    hGuard | ⟨fault, guarded, hGuard, hSteps⟩
  · rw [hGuard]
    dsimp only
    split
    · exact .refl
    · rename_i hOpen
      rcases not_not.mp hOpen with hState | hState <;>
        exact stepsTo_settled (by rw [hState]; rfl)
  · rw [hGuard]
    exact hSteps

theorem beginExecution_stepsTo (nowMonoNs activeGeneration : UInt64) :
    StepsTo record (record.beginExecution nowMonoNs activeGeneration).2 := by
  unfold LifecycleRecord.beginExecution
  rcases preExecutionGuard_stepsTo nowMonoNs activeGeneration with
    hGuard | ⟨fault, guarded, hGuard, hSteps⟩
  · rw [hGuard]
    dsimp only
    split
    · exact .refl
    · rename_i hState
      exact stepsTo_settled (by rw [not_not.mp hState]; rfl)
  · rw [hGuard]
    exact hSteps

theorem step_stepsTo (record : LifecycleRecord) (action : Action) :
    StepsTo record (record.step action) := by
  cases action with
  | applyPlan outcome => exact applyPlan_stepsTo outcome
  | applyVerifiedDecision nowMonoNs activeGeneration decision =>
      exact applyVerifiedDecision_stepsTo nowMonoNs activeGeneration decision
  | cancel nowMonoNs activeGeneration => exact cancel_stepsTo nowMonoNs activeGeneration
  | beginExecution nowMonoNs activeGeneration =>
      exact beginExecution_stepsTo nowMonoNs activeGeneration
  | finishExecution succeeded recoveryRequired =>
      show StepsTo record (record.finishExecution succeeded recoveryRequired).2
      unfold LifecycleRecord.finishExecution
      split
      · exact .refl
      rename_i hState
      rw [not_not] at hState
      split
      · exact stepsTo_settled (by rw [hState]; rfl)
      · exact stepsTo_settled (by rw [hState]; rfl)
      · exact stepsTo_settled (by rw [hState]; rfl)
      · exact .refl
  | reconcile succeeded =>
      show StepsTo record (record.reconcile succeeded).2
      unfold LifecycleRecord.reconcile
      split
      · exact .refl
      rename_i hState
      rw [not_not] at hState
      split <;> exact stepsTo_settled (by rw [hState]; rfl)

/-! #### Records without time -/

/-- The reasons of the moves that a deadline of zero leaves to a record. -/
def TIMELESS : List TransitionReason :=
  [.created, .plannerPending, .plannerNoChange, .plannerInvalid, .expired]

/-- A record with this deadline has the time for the moves of the history. -/
def InTime (deadlineMonoNs : UInt64) (history : List LifecycleEvent) : Prop :=
  deadlineMonoNs = 0 → ∀ event ∈ history, event.reason ∈ TIMELESS

/-- The states in which a record without time can be. -/
def WITHOUT_TIME : List RequestState :=
  [.planning, .pending, .noChange, .invalid, .expired]

/-- A plan for the package, as far as the lifecycle looks at it. -/
def planFor (package : PackageName) : FrozenPlan where
  packageName := package
  manifestDigest := ByteArr.fill 32 0
  planDigest := ByteArr.fill 32 0
  actionCount := 0

/-- The action that makes a move of the lifecycle. -/
def actionFor (record : LifecycleRecord) : TransitionReason → Action
  | .plannerPending => .applyPlan (.pending (planFor record.requestedPackage))
  | .plannerNoChange => .applyPlan (.noChange 0)
  | .plannerInvalid => .applyPlan (.invalid 0)
  | .approved => .applyVerifiedDecision 0 record.generation
      { requestDigest := record.requestDigest, generation := record.generation
        decision := .approve, assertionDigest := ByteArr.fill 32 0 }
  | .denied => .applyVerifiedDecision 0 record.generation
      { requestDigest := record.requestDigest, generation := record.generation
        decision := .deny, assertionDigest := ByteArr.fill 32 0 }
  | .expired => .cancel record.deadlineMonoNs record.generation
  | .generationStale => .cancel 0 (record.generation + 1)
  | .cancelled | .created => .cancel 0 record.generation
  | .executionStarted => .beginExecution 0 record.generation
  | .executionSucceeded => .finishExecution true false
  | .executionFailed => .finishExecution false false
  | .recoveryRequired => .finishExecution false true
  | .reconciledSucceeded => .reconcile true
  | .reconciledFailed => .reconcile false

omit [Cryptography] in
theorem not_deadline_le_zero (hDeadline : record.deadlineMonoNs ≠ 0) :
    ¬ record.deadlineMonoNs ≤ 0 := by
  rw [UInt64.le_iff_toNat_le, UInt64.toNat_zero, Nat.le_zero, ← UInt64.toNat_zero,
    UInt64.toNat_inj]
  exact hDeadline

/-- In time and with its own generation, the guard lets an open record through. -/
theorem preExecutionGuard_of_open
    (hOpen : record.state = .pending ∨ record.state = .approved)
    (hDeadline : record.deadlineMonoNs ≠ 0) :
    record.preExecutionGuard 0 record.generation = (.ok (), record) := by
  have hOngoing : record.state.isTerminal = false := by
    rcases hOpen with hState | hState <;> rw [hState] <;> rfl
  simp only [LifecycleRecord.preExecutionGuard, hOngoing,
    not_deadline_le_zero hDeadline, and_false, ne_eq, not_true_eq_false, if_false,
    Bool.false_eq_true]

theorem preExecutionGuard_of_late {nowMonoNs : UInt64} (activeGeneration : UInt64)
    (hOpen : record.state = .pending ∨ record.state = .approved)
    (hLate : record.deadlineMonoNs ≤ nowMonoNs) :
    record.preExecutionGuard nowMonoNs activeGeneration =
      (.error .alreadyTerminal, record.winner .expired .expired) := by
  have hOngoing : record.state.isTerminal = false := by
    rcases hOpen with hState | hState <;> rw [hState] <;> rfl
  simp only [LifecycleRecord.preExecutionGuard, hOngoing, hOpen, hLate, and_self, if_true,
    if_false, Bool.false_eq_true]

theorem preExecutionGuard_of_stale
    (hOpen : record.state = .pending ∨ record.state = .approved)
    (hDeadline : record.deadlineMonoNs ≠ 0) :
    record.preExecutionGuard 0 (record.generation + 1) =
      (.error .alreadyTerminal, record.winner .stale .generationStale) := by
  have hOngoing : record.state.isTerminal = false := by
    rcases hOpen with hState | hState <;> rw [hState] <;> rfl
  have hOther : record.generation + 1 ≠ record.generation := by
    intro hSame
    have hNat := congrArg UInt64.toNat hSame
    rw [UInt64.toNat_add] at hNat
    have hOne : (1 : UInt64).toNat = 1 := rfl
    have hBound := record.generation.toNat_lt
    omega
  simp only [LifecycleRecord.preExecutionGuard, hOngoing, hOpen, hOther,
    not_deadline_le_zero hDeadline, and_false, and_self, ne_eq, not_false_eq_true,
    if_true, if_false, Bool.false_eq_true]

omit [Cryptography] in
/-- The states that a reason moves on. -/
theorem state_of_lifecycleMove {source target : RequestState}
    {reason : TransitionReason} (h : lifecycleMove source reason = some target) :
    match reason with
    | .created => False
    | .plannerPending | .plannerNoChange | .plannerInvalid => source = .planning
    | .approved | .denied => source = .pending
    | .expired | .cancelled | .generationStale => source = .pending ∨ source = .approved
    | .executionStarted => source = .approved
    | .executionSucceeded | .executionFailed | .recoveryRequired => source = .executing
    | .reconciledSucceeded | .reconciledFailed => source = .recoveryRequired := by
  cases source <;> cases reason <;> cases h <;> first | rfl | exact .inl rfl | exact .inr rfl

/-- Every move of the lifecycle is made by an action. -/
theorem advances_actionFor {reason : TransitionReason} {next : RequestState}
    (h : lifecycleMove record.state reason = some next)
    (hTime : record.deadlineMonoNs ≠ 0 ∨ reason ∈ TIMELESS) :
    Advances record reason (record.step (actionFor record reason)) := by
  have hSource := state_of_lifecycleMove h
  have hWinner := advances_winner h
  unfold LifecycleRecord.step
  cases reason with
  | created => exact hSource.elim
  | plannerPending =>
      have hPlanned : Advances
          { record with plan := some (planFor record.requestedPackage) } .plannerPending
          (LifecycleRecord.winner
            { record with plan := some (planFor record.requestedPackage) } .pending
            .plannerPending) := advances_winner (by rw [hSource]; rfl)
      simp only [actionFor, LifecycleRecord.perform, LifecycleRecord.applyPlan, hSource,
        planFor, ne_eq, not_true_eq_false, if_false, LifecycleRecord.settled]
      exact hPlanned
  | plannerNoChange =>
      rw [hSource] at h
      cases h
      simp only [actionFor, LifecycleRecord.perform, LifecycleRecord.applyPlan, hSource,
        ne_eq, not_true_eq_false, if_false, LifecycleRecord.settled]
      exact hWinner
  | plannerInvalid =>
      rw [hSource] at h
      cases h
      simp only [actionFor, LifecycleRecord.perform, LifecycleRecord.applyPlan, hSource,
        ne_eq, not_true_eq_false, if_false, LifecycleRecord.settled]
      exact hWinner
  | approved =>
      have hDeadline := hTime.resolve_right (by decide)
      rw [hSource] at h
      cases h
      simp only [actionFor, LifecycleRecord.perform,
        LifecycleRecord.applyVerifiedDecision,
        preExecutionGuard_of_open (.inl hSource) hDeadline, hSource, ne_eq,
        not_true_eq_false, if_false, LifecycleRecord.settled]
      exact hWinner
  | denied =>
      have hDeadline := hTime.resolve_right (by decide)
      rw [hSource] at h
      cases h
      simp only [actionFor, LifecycleRecord.perform,
        LifecycleRecord.applyVerifiedDecision,
        preExecutionGuard_of_open (.inl hSource) hDeadline, hSource, ne_eq,
        not_true_eq_false, if_false, LifecycleRecord.settled]
      exact hWinner
  | expired =>
      have hNext : next = .expired := by
        rcases hSource with hState | hState <;> rw [hState] at h <;> cases h <;> rfl
      subst hNext
      simp only [actionFor, LifecycleRecord.perform, LifecycleRecord.cancel,
        preExecutionGuard_of_late _ hSource (UInt64.le_refl _)]
      exact hWinner
  | generationStale =>
      have hDeadline := hTime.resolve_right (by decide)
      have hNext : next = .stale := by
        rcases hSource with hState | hState <;> rw [hState] at h <;> cases h <;> rfl
      subst hNext
      simp only [actionFor, LifecycleRecord.perform, LifecycleRecord.cancel,
        preExecutionGuard_of_stale hSource hDeadline]
      exact hWinner
  | cancelled =>
      have hDeadline := hTime.resolve_right (by decide)
      have hNext : next = .cancelled := by
        rcases hSource with hState | hState <;> rw [hState] at h <;> cases h <;> rfl
      subst hNext
      simp only [actionFor, LifecycleRecord.perform, LifecycleRecord.cancel,
        preExecutionGuard_of_open hSource hDeadline, hSource, not_true_eq_false, if_false,
        LifecycleRecord.settled]
      exact hWinner
  | executionStarted =>
      have hDeadline := hTime.resolve_right (by decide)
      rw [hSource] at h
      cases h
      simp only [actionFor, LifecycleRecord.perform, LifecycleRecord.beginExecution,
        preExecutionGuard_of_open (.inr hSource) hDeadline, hSource, ne_eq,
        not_true_eq_false, if_false, LifecycleRecord.settled]
      exact hWinner
  | executionSucceeded =>
      rw [hSource] at h
      cases h
      simp only [actionFor, LifecycleRecord.perform, LifecycleRecord.finishExecution,
        hSource, ne_eq, not_true_eq_false, if_false, LifecycleRecord.settled]
      exact hWinner
  | executionFailed =>
      rw [hSource] at h
      cases h
      simp only [actionFor, LifecycleRecord.perform, LifecycleRecord.finishExecution,
        hSource, ne_eq, not_true_eq_false, if_false, LifecycleRecord.settled]
      exact hWinner
  | recoveryRequired =>
      rw [hSource] at h
      cases h
      simp only [actionFor, LifecycleRecord.perform, LifecycleRecord.finishExecution,
        hSource, ne_eq, not_true_eq_false, if_false, LifecycleRecord.settled]
      exact hWinner
  | reconciledSucceeded =>
      rw [hSource] at h
      cases h
      simp only [actionFor, LifecycleRecord.perform, LifecycleRecord.reconcile, hSource,
        ne_eq, not_true_eq_false, if_false, if_true, LifecycleRecord.settled]
      exact hWinner
  | reconciledFailed =>
      rw [hSource] at h
      cases h
      simp only [actionFor, LifecycleRecord.perform, LifecycleRecord.reconcile, hSource,
        ne_eq, not_true_eq_false, if_false, Bool.false_eq_true, LifecycleRecord.settled]
      exact hWinner

/-- A pending record without time expires with the first action that looks at the time;
all other actions refuse it. -/
theorem step_of_pending (hPending : record.state = .pending)
    (hDeadline : record.deadlineMonoNs = 0) (action : Action) :
    record.step action = record ∨ record.step action = record.winner .expired .expired := by
  have hGuard : ∀ nowMonoNs activeGeneration,
      record.preExecutionGuard nowMonoNs activeGeneration =
        (.error .alreadyTerminal, record.winner .expired .expired) :=
    fun nowMonoNs activeGeneration => preExecutionGuard_of_late activeGeneration
      (.inl hPending) (hDeadline ▸ UInt64.le_iff_toNat_le.mpr (Nat.zero_le _))
  unfold LifecycleRecord.step
  cases action with
  | applyPlan outcome =>
      left
      simp only [LifecycleRecord.perform, LifecycleRecord.applyPlan, hPending, ne_eq,
        reduceCtorEq, not_false_eq_true, if_true]
  | applyVerifiedDecision nowMonoNs activeGeneration decision =>
      right
      simp only [LifecycleRecord.perform, LifecycleRecord.applyVerifiedDecision, hGuard]
  | cancel nowMonoNs activeGeneration =>
      right
      simp only [LifecycleRecord.perform, LifecycleRecord.cancel, hGuard]
  | beginExecution nowMonoNs activeGeneration =>
      right
      simp only [LifecycleRecord.perform, LifecycleRecord.beginExecution, hGuard]
  | finishExecution succeeded recoveryRequired =>
      left
      simp only [LifecycleRecord.perform, LifecycleRecord.finishExecution, hPending, ne_eq,
        reduceCtorEq, not_false_eq_true, if_true]
  | reconcile succeeded =>
      left
      simp only [LifecycleRecord.perform, LifecycleRecord.reconcile, hPending, ne_eq,
        reduceCtorEq, not_false_eq_true, if_true]

/-- A record without time that moves does so for a reason that needs none. -/
theorem timeless_of_advances {action : Action} {reason : TransitionReason}
    (hDeadline : record.deadlineMonoNs = 0) (hState : record.state ∈ WITHOUT_TIME)
    (h : Advances record reason (record.step action)) :
    reason ∈ TIMELESS ∧ (record.step action).state ∈ WITHOUT_TIME := by
  obtain ⟨hMove, -, hEvents⟩ := h
  simp only [WITHOUT_TIME, List.mem_cons, List.not_mem_nil, or_false] at hState
  rcases hState with hState | hState | hState | hState | hState
  · rw [hState] at hMove
    generalize (record.step action).state = next at hMove
    cases reason <;> cases hMove <;> decide
  · rcases step_of_pending hState hDeadline action with hSame | hExpired
    · rw [hSame] at hEvents
      exact absurd (List.self_eq_append_right.mp hEvents) (List.cons_ne_nil _ _)
    · rw [hExpired, winner_state] at hMove ⊢
      rw [hState] at hMove
      cases reason <;> cases hMove
      decide
  all_goals
    rw [hState] at hMove
    cases reason <;> cases hMove

/-- What holds of a record that actions have made out of a new one. -/
structure Recorded (requestId : PublicId) (record : LifecycleRecord) : Prop where
  coherent : Coherent record
  history : History requestId record.events
  inTime : InTime record.deadlineMonoNs record.events
  withoutTime : record.deadlineMonoNs = 0 → record.state ∈ WITHOUT_TIME

omit [Cryptography] in
theorem deadlineMonoNs_of_bindings (h : after.bindings = record.bindings) :
    after.deadlineMonoNs = record.deadlineMonoNs :=
  congrArg (fun bindings => bindings.2.2.2.2) h

theorem Recorded.advance {requestId : PublicId} {reason : TransitionReason}
    (h : Recorded requestId record) (hId : record.requestId = requestId)
    (hAfter : Coherent after) (hMove : Advances record reason after)
    (hTimeless : record.deadlineMonoNs = 0 →
      reason ∈ TIMELESS ∧ after.state ∈ WITHOUT_TIME) :
    Recorded requestId after := by
  obtain ⟨hLifecycle, hBindings, hEvents⟩ := hMove
  have hDeadline := deadlineMonoNs_of_bindings hBindings
  refine ⟨hAfter, ?_, fun hZero => ?_, fun hZero => ?_⟩
  · obtain ⟨last, hLast, hState⟩ := h.coherent.last
    have hLength := h.coherent.length
    have hRank := record.state.rank_le
    have hFollows : (lifecycleLog requestId).Follows record.events.getLast?
        (record.nextEvent after.state reason) := by
      rw [← hId]
      exact nextEvent_follows h.coherent.linked (by omega)
    rw [hEvents]
    refine h.history.concat hLast ?_ hFollows
    show lifecycleMove last.state reason = some after.state
    rw [hState]
    exact hLifecycle
  · rw [hDeadline] at hZero
    rw [hEvents]
    intro event hEvent
    rcases List.mem_append.mp hEvent with hOld | hNew
    · exact h.inTime hZero event hOld
    · rw [List.mem_singleton.mp hNew, LifecycleRecord.nextEvent]
      exact (hTimeless hZero).1
  · exact (hTimeless (hDeadline ▸ hZero)).2

/-- A record with the bindings of a new one, and a history. -/
structure Made (requestId : PublicId) (fresh record : LifecycleRecord) : Prop
    extends Recorded requestId record where
  bindings : record.bindings = fresh.bindings

theorem Made.step {requestId : PublicId} {fresh : LifecycleRecord}
    (hId : fresh.requestId = requestId) (h : Made requestId fresh record)
    (action : Action) : Made requestId fresh (record.step action) := by
  have hSame : record.requestId = requestId :=
    (congrArg Prod.fst h.bindings).trans hId
  have hCoherent := Coherent.step record action h.coherent
  rcases step_stepsTo record action with ⟨hState, hBindings, hEvents⟩ | ⟨reason, hMove⟩
  · have hDeadline := deadlineMonoNs_of_bindings hBindings
    refine ⟨⟨hCoherent, ?_, ?_, ?_⟩, hBindings.trans h.bindings⟩
    · rw [hEvents]
      exact h.history
    · rw [hEvents, hDeadline]
      exact h.inTime
    · rw [hState, hDeadline]
      exact h.withoutTime
  · have hTimeless : record.deadlineMonoNs = 0 →
        reason ∈ TIMELESS ∧ (record.step action).state ∈ WITHOUT_TIME :=
      fun hZero => timeless_of_advances hZero (h.withoutTime hZero) hMove
    exact ⟨h.toRecorded.advance hSame hCoherent hMove hTimeless,
      hMove.2.1.trans h.bindings⟩

/-- From a record with a history there is an action to each longer one that it has the
time for. -/
theorem Made.exists_action {requestId : PublicId} {fresh : LifecycleRecord}
    {last event : LifecycleEvent} (hId : fresh.requestId = requestId)
    (hTime : fresh.deadlineMonoNs ≠ 0 ∨ event.reason ∈ TIMELESS)
    (h : Made requestId fresh record)
    (hLast : record.events.getLast? = some last) (hMove : Documented last event)
    (hFollows : (lifecycleLog requestId).Follows record.events.getLast? event) :
    ∃ action, (record.step action).events = record.events ++ [event] := by
  obtain ⟨found, hFound, hState⟩ := h.coherent.last
  rw [hLast, Option.some.injEq] at hFound
  subst hFound
  have hLifecycle : lifecycleMove record.state event.reason = some event.state := by
    rw [← hState]
    exact hMove
  rw [← deadlineMonoNs_of_bindings h.bindings] at hTime
  obtain ⟨hReached, -, hEvents⟩ := advances_actionFor hLifecycle hTime
  rw [hLifecycle, Option.some.injEq] at hReached
  refine ⟨actionFor record event.reason, ?_⟩
  rw [hEvents, ← hReached]
  have hSame : record.requestId = requestId :=
    (congrArg Prod.fst h.bindings).trans hId
  have hLength := h.coherent.length
  have hRank := record.state.rank_le
  have hNext : (lifecycleLog requestId).Follows record.events.getLast?
      (record.nextEvent event.state event.reason) := by
    rw [← hSame]
    exact nextEvent_follows h.coherent.linked (by omega)
  have hState : (record.nextEvent event.state event.reason).state = event.state := by
    rw [LifecycleRecord.nextEvent]
  have hReason : (record.nextEvent event.state event.reason).reason = event.reason := by
    rw [LifecycleRecord.nextEvent]
  rw [LifecycleEvent.eq_of_follows hNext hFollows hState hReason]

end Moves

section Fresh

variable [Cryptography] (requestId receiptId : PublicId)
  (requestedPackage : PackageName) (requestDigest : Digest)
  (generation deadlineMonoNs : UInt64)

/-- The only event of a new record. -/
theorem events_new : ∃ event, (LifecycleRecord.new requestId receiptId requestedPackage
      requestDigest generation deadlineMonoNs).events = [event] ∧
    event.state = .planning ∧ event.reason = .created :=
  ⟨_, rfl, rfl, rfl⟩

theorem made_new : Made requestId
    (LifecycleRecord.new requestId receiptId requestedPackage requestDigest generation
      deadlineMonoNs)
    (LifecycleRecord.new requestId receiptId requestedPackage requestDigest generation
      deadlineMonoNs) := by
  have hCoherent := Coherent.new requestId receiptId requestedPackage requestDigest
    generation deadlineMonoNs
  obtain ⟨event, hEvents, -, hReason⟩ := events_new requestId receiptId requestedPackage
    requestDigest generation deadlineMonoNs
  refine ⟨⟨hCoherent, ⟨hCoherent.linked, hCoherent.first, ?_⟩, ?_, fun _ => ?_⟩, rfl⟩
  · rw [hEvents]
    exact List.isChain_singleton event
  · rw [hEvents]
    intro _ found hFound
    rw [List.mem_singleton.mp hFound, hReason]
    decide
  · exact List.mem_cons_self

/-- Whatever is done to a new record, its events are a history along the lifecycle. -/
theorem made_run (actions : List Action) : Made requestId
    (LifecycleRecord.new requestId receiptId requestedPackage requestDigest generation
      deadlineMonoNs)
    (run LifecycleRecord.step (LifecycleRecord.new requestId receiptId requestedPackage
      requestDigest generation deadlineMonoNs) actions) := by
  have hOwn : (LifecycleRecord.new requestId receiptId requestedPackage requestDigest
      generation deadlineMonoNs).requestId = requestId := rfl
  exact run_invariant (made_new requestId receiptId requestedPackage requestDigest
    generation deadlineMonoNs) (fun record action h => h.step hOwn action) actions

/-- Some actions on a new record lead to a history that it has the time for. -/
theorem exists_actions {history : List LifecycleEvent}
    (hHistory : History requestId history) (hInTime : InTime deadlineMonoNs history) :
    ∃ actions, (run LifecycleRecord.step (LifecycleRecord.new requestId receiptId
      requestedPackage requestDigest generation deadlineMonoNs) actions).events =
        history := by
  have hRun := made_run requestId receiptId requestedPackage requestDigest generation
    deadlineMonoNs
  obtain ⟨created, hCreated, hPlanning, hReason⟩ := events_new requestId receiptId
    requestedPackage requestDigest generation deadlineMonoNs
  have hOwn : (LifecycleRecord.new requestId receiptId requestedPackage requestDigest
      generation deadlineMonoNs).requestId = requestId := rfl
  have hDeadline : (LifecycleRecord.new requestId receiptId requestedPackage requestDigest
      generation deadlineMonoNs).deadlineMonoNs = deadlineMonoNs := rfl
  generalize LifecycleRecord.new requestId receiptId requestedPackage requestDigest
    generation deadlineMonoNs = fresh at *
  induction history using List.reverseRecOn with
  | nil =>
      obtain ⟨event, hHead, -⟩ := hHistory.first
      cases hHead
  | append_singleton earlier event ih =>
      have hFollows := (LogFormat.linked_concat_iff.mp hHistory.linked).2
      rcases hHistory.cases_concat with
        ⟨rfl, hState, hCause⟩ | ⟨last, hLast, hEarlier, hMove⟩
      · -- The first event is the one of the creation.
        have hLinked : (lifecycleLog requestId).Linked ([] ++ [created]) :=
          hCreated ▸ (hRun []).history.linked
        have hFirst := (LogFormat.linked_concat_iff.mp hLinked).2
        refine ⟨[], ?_⟩
        rw [run_nil, hCreated, LifecycleEvent.eq_of_follows hFirst hFollows
          (hPlanning.trans hState.symm) (hReason.trans hCause.symm)]
        rfl
      · obtain ⟨actions, rfl⟩ := ih hEarlier fun hZero found hFound =>
          hInTime hZero found (List.mem_append_left _ hFound)
        have hTime : fresh.deadlineMonoNs ≠ 0 ∨ event.reason ∈ TIMELESS := by
          rw [hDeadline, or_iff_not_imp_left, not_not]
          exact fun hZero => hInTime hZero event List.mem_concat_self
        obtain ⟨action, hAction⟩ :=
          (hRun actions).exists_action hOwn hTime hLast hMove hFollows
        exact ⟨actions ++ [action], by rw [run_concat, hAction]⟩

/-- The events that actions on a new record leave behind are the histories along the
lifecycle that it has the time for: each of them is one, and for each of them there are
actions.  With a deadline other than zero, these are all histories. -/
theorem record_histories_iff (history : List LifecycleEvent) :
    (∃ actions, (run LifecycleRecord.step (LifecycleRecord.new requestId receiptId
      requestedPackage requestDigest generation deadlineMonoNs) actions).events =
        history) ↔ History requestId history ∧ InTime deadlineMonoNs history := by
  constructor
  · rintro ⟨actions, rfl⟩
    have hMade := made_run requestId receiptId requestedPackage requestDigest generation
      deadlineMonoNs actions
    have hDeadline := hMade.inTime
    rw [deadlineMonoNs_of_bindings hMade.bindings] at hDeadline
    exact ⟨hMade.history, hDeadline⟩
  · rintro ⟨hHistory, hInTime⟩
    exact exists_actions requestId receiptId requestedPackage requestDigest generation
      deadlineMonoNs hHistory hInTime

end Fresh

end Record

end Broker
end RootPermit
