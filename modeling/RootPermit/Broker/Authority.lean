import RootPermit.Broker.Record

/-!
# Authority for an execution

A record stores no account of how it reached its state.  The account is recovered
from the sequence of actions: a record that is or was executing got there by one
frozen plan for the requested package, then one approval that is bound to the
request, then one start of the execution, the last two in time and in the generation
of the request (`execution_authority`).  The clock and the generation of each action
are arbitrary.
-/

namespace RootPermit
namespace Broker
namespace Record

open Foundation Protocol

section Events

variable [Cryptography]

/-- The action freezes a plan. -/
def AcceptsPlan (record : LifecycleRecord) (action : Action) : Prop :=
  (∃ plan, action = .applyPlan (.pending plan)) ∧ record.Accepts action

/-- The action approves the request. -/
def AcceptsApproval (record : LifecycleRecord) (action : Action) : Prop :=
  (∃ nowMonoNs activeGeneration decision,
    action = .applyVerifiedDecision nowMonoNs activeGeneration decision ∧
    decision.decision = .approve) ∧ record.Accepts action

/-- The action starts the execution. -/
def AcceptsExecution (record : LifecycleRecord) (action : Action) : Prop :=
  (∃ nowMonoNs activeGeneration,
    action = .beginExecution nowMonoNs activeGeneration) ∧ record.Accepts action

/-- The action cancels the request. -/
def AcceptsCancel (record : LifecycleRecord) (action : Action) : Prop :=
  (∃ nowMonoNs activeGeneration,
    action = .cancel nowMonoNs activeGeneration) ∧ record.Accepts action

variable {record : LifecycleRecord} {action : Action}

/-- A successful action has an outcome that is not an error. -/
theorem LifecycleRecord.Accepts.performs (h : record.Accepts action) :
    ∃ state, Performs record action (.ok state) (record.step action) := by
  obtain ⟨state, hOk⟩ := h
  have hPerforms := perform_performs record action
  rw [hOk] at hPerforms
  exact ⟨state, hPerforms⟩

theorem AcceptsPlan.states (h : AcceptsPlan record action) :
    record.state = .planning ∧ (record.step action).state = .pending := by
  obtain ⟨⟨plan, rfl⟩, hAccepts⟩ := h
  obtain ⟨state, hPerforms⟩ := hAccepts.performs
  generalize record.step _ = after at hPerforms ⊢
  cases hPerforms with
  | planned _ hState => exact ⟨hState, winner_state _ _⟩
  | unplanned _ _ _ _ _ hOutcome => exact absurd rfl (hOutcome plan)

theorem AcceptsApproval.states (h : AcceptsApproval record action) :
    record.state = .pending ∧ (record.step action).state = .approved := by
  obtain ⟨⟨_, _, decision, rfl, hApprove⟩, hAccepts⟩ := h
  obtain ⟨state, hPerforms⟩ := hAccepts.performs
  generalize record.step _ = after at hPerforms ⊢
  cases hPerforms with
  | decided _ _ _ _ _ hState _ _ _ _ hNext =>
      refine ⟨hState, ?_⟩
      rcases hNext with ⟨-, rfl⟩ | ⟨hDeny, -⟩
      · exact winner_state _ _
      · rw [hApprove] at hDeny
        cases hDeny

theorem AcceptsExecution.states (h : AcceptsExecution record action) :
    record.state = .approved ∧ (record.step action).state = .executing := by
  obtain ⟨⟨_, _, rfl⟩, hAccepts⟩ := h
  obtain ⟨state, hPerforms⟩ := hAccepts.performs
  generalize record.step _ = after at hPerforms ⊢
  cases hPerforms with
  | begun _ _ hState => exact ⟨hState, winner_state _ _⟩

theorem AcceptsCancel.state (h : AcceptsCancel record action) :
    (record.step action).state = .cancelled := by
  obtain ⟨⟨_, _, rfl⟩, hAccepts⟩ := h
  obtain ⟨state, hPerforms⟩ := hAccepts.performs
  generalize record.step _ = after at hPerforms ⊢
  cases hPerforms with
  | cancelled => exact winner_state _ _

end Events

/-! ### The cause of a state -/

section Causes

variable [Cryptography] {record : LifecycleRecord} {action : Action}

/-- The states of a request whose execution was started. -/
def EXECUTED : List RequestState :=
  [.executing, .recoveryRequired, .succeeded, .failed]

/-- The closed states of a request that was never executed. -/
def UNEXECUTED : List RequestState :=
  [.noChange, .invalid, .denied, .expired, .cancelled, .stale]

/-- What an action does to the authority of a request: the state after it, with the
conditions that it was taken under. -/
inductive Progress (record : LifecycleRecord) (action : Action) :
    RequestState → Prop where
  | stayed : Progress record action record.state
  | closed (state : RequestState) (hClosed : state ∈ UNEXECUTED) :
      Progress record action state
  | planned (plan : FrozenPlan) (hAction : action = .applyPlan (.pending plan))
      (hPackage : plan.packageName = record.requestedPackage)
      (hAccepts : record.Accepts action) : Progress record action .pending
  | approved (nowMonoNs activeGeneration : UInt64) (decision : VerifiedDecision)
      (hAction : action =
        .applyVerifiedDecision nowMonoNs activeGeneration decision)
      (hDecision : decision.decision = .approve)
      (hDigest : decision.requestDigest = record.requestDigest)
      (hGeneration : decision.generation = record.generation)
      (hNow : nowMonoNs < record.deadlineMonoNs)
      (hActive : activeGeneration = record.generation)
      (hAccepts : record.Accepts action) : Progress record action .approved
  | executed (nowMonoNs activeGeneration : UInt64)
      (hAction : action = .beginExecution nowMonoNs activeGeneration)
      (hNow : nowMonoNs < record.deadlineMonoNs)
      (hActive : activeGeneration = record.generation)
      (hAccepts : record.Accepts action) : Progress record action .executing
  | finished (state : RequestState) (hBefore : record.state ∈ EXECUTED)
      (hAfter : state ∈ EXECUTED) : Progress record action state

theorem step_progress (record : LifecycleRecord) (action : Action) :
    Progress record action (record.step action).state := by
  have hPerforms := perform_performs record action
  generalize hResult : (record.perform action).1 = result at hPerforms
  generalize record.step action = after at hPerforms
  cases hPerforms with
  | refused => exact .stayed
  | planned plan _ hPackage =>
      rw [winner_state]
      exact .planned plan rfl hPackage ⟨_, hResult⟩
  | lapsed _ next _ _ hNext =>
      rw [winner_state]
      exact .closed next (by rcases hNext with rfl | rfl <;> decide)
  | unplanned _ next _ _ hNext =>
      rw [winner_state]
      exact .closed next (by rcases hNext with rfl | rfl <;> decide)
  | decided nowMonoNs activeGeneration decision next _ _ hNow hActive hDigest
      hGeneration hNext =>
      rw [winner_state]
      rcases hNext with ⟨hApprove, rfl⟩ | ⟨-, rfl⟩
      · exact .approved nowMonoNs activeGeneration decision rfl hApprove hDigest
          hGeneration hNow hActive ⟨_, hResult⟩
      · exact .closed .denied (by decide)
  | cancelled =>
      rw [winner_state]
      exact .closed .cancelled (by decide)
  | begun nowMonoNs activeGeneration _ hNow hActive =>
      rw [winner_state]
      exact .executed nowMonoNs activeGeneration rfl hNow hActive ⟨_, hResult⟩
  | finished _ _ next _ hState hNext =>
      rw [winner_state]
      refine .finished next ?_ ?_
      · rw [hState]
        decide
      · rcases hNext with rfl | rfl | rfl <;> decide
  | reconciled _ next _ hState hNext =>
      rw [winner_state]
      refine .finished next ?_ ?_
      · rw [hState]
        decide
      · rcases hNext with rfl | rfl <;> decide

/-- A request becomes pending by a plan for its package. -/
theorem plan_cause (hBefore : record.state ≠ .pending)
    (hAfter : (record.step action).state = .pending) :
    ∃ plan, action = .applyPlan (.pending plan) ∧
      plan.packageName = record.requestedPackage ∧ record.Accepts action := by
  have hProgress := step_progress record action
  rw [hAfter] at hProgress
  generalize hState : RequestState.pending = state at hProgress
  cases hProgress with
  | stayed => exact absurd hState.symm hBefore
  | closed _ hClosed => rw [← hState] at hClosed; exact absurd hClosed (by decide)
  | planned plan hAction hPackage hAccepts =>
      exact ⟨plan, hAction, hPackage, hAccepts⟩
  | approved => cases hState
  | executed => cases hState
  | finished _ _ hExecuted =>
      rw [← hState] at hExecuted
      exact absurd hExecuted (by decide)

/-- A request becomes approved by an approval that is bound to it, in time and in
its generation. -/
theorem approved_cause (hBefore : record.state ≠ .approved)
    (hAfter : (record.step action).state = .approved) :
    ∃ nowMonoNs activeGeneration decision,
      action = .applyVerifiedDecision nowMonoNs activeGeneration decision ∧
      decision.decision = .approve ∧
      decision.requestDigest = record.requestDigest ∧
      decision.generation = record.generation ∧
      nowMonoNs < record.deadlineMonoNs ∧ activeGeneration = record.generation ∧
      record.Accepts action := by
  have hProgress := step_progress record action
  rw [hAfter] at hProgress
  generalize hState : RequestState.approved = state at hProgress
  cases hProgress with
  | stayed => exact absurd hState.symm hBefore
  | closed _ hClosed => rw [← hState] at hClosed; exact absurd hClosed (by decide)
  | planned => cases hState
  | approved nowMonoNs activeGeneration decision hAction hDecision hDigest hGeneration
      hNow hActive hAccepts =>
      exact ⟨nowMonoNs, activeGeneration, decision, hAction, hDecision, hDigest,
        hGeneration, hNow, hActive, hAccepts⟩
  | executed => cases hState
  | finished _ _ hExecuted =>
      rw [← hState] at hExecuted
      exact absurd hExecuted (by decide)

/-- A request is executed by the start of its execution, in time and in its
generation. -/
theorem executed_cause (hBefore : record.state ∉ EXECUTED)
    (hAfter : (record.step action).state ∈ EXECUTED) :
    ∃ nowMonoNs activeGeneration,
      action = .beginExecution nowMonoNs activeGeneration ∧
      nowMonoNs < record.deadlineMonoNs ∧ activeGeneration = record.generation ∧
      record.Accepts action := by
  have hProgress := step_progress record action
  generalize (record.step action).state = state at hProgress hAfter
  cases hProgress with
  | stayed => exact absurd hAfter hBefore
  | closed _ hClosed =>
      have hDisjoint : ∀ state ∈ UNEXECUTED, state ∉ EXECUTED := by decide
      exact absurd hAfter (hDisjoint _ hClosed)
  | planned => exact absurd hAfter (by decide)
  | approved => exact absurd hAfter (by decide)
  | executed nowMonoNs activeGeneration hAction hNow hActive hAccepts =>
      exact ⟨nowMonoNs, activeGeneration, hAction, hNow, hActive, hAccepts⟩
  | finished _ hExecuted => exact absurd hExecuted hBefore

end Causes

/-! ### Along a run -/

section Runs

variable [Cryptography] {record : LifecycleRecord} {action : Action}

/-- What a record is bound to. -/
structure SameBindings (first second : LifecycleRecord) : Prop where
  requestedPackage : second.requestedPackage = first.requestedPackage
  requestDigest : second.requestDigest = first.requestDigest
  generation : second.generation = first.generation
  deadlineMonoNs : second.deadlineMonoNs = first.deadlineMonoNs

theorem winner_sameBindings (next : RequestState) (reason : TransitionReason) :
    SameBindings record (record.winner next reason) := by
  unfold LifecycleRecord.winner
  split <;> exact ⟨rfl, rfl, rfl, rfl⟩

theorem SameBindings.step (record : LifecycleRecord) (action : Action) :
    SameBindings record (record.step action) := by
  rcases (perform_performs record action).moves with
    ⟨-, hSame⟩ | ⟨plan, -, -, hAfter⟩ | ⟨next, reason, -, -, hAfter⟩
  · rw [hSame]
    exact ⟨rfl, rfl, rfl, rfl⟩
  · rw [hAfter]
    have hWinner : SameBindings { record with plan := some plan }
        (LifecycleRecord.winner { record with plan := some plan } .pending
          .plannerPending) := winner_sameBindings _ _
    exact ⟨hWinner.requestedPackage, hWinner.requestDigest, hWinner.generation,
      hWinner.deadlineMonoNs⟩
  · rw [hAfter]
    exact winner_sameBindings next reason

theorem SameBindings.run (record : LifecycleRecord) (actions : List Action) :
    SameBindings record (run LifecycleRecord.step record actions) := by
  apply run_related (R := SameBindings)
  · intro record
    exact ⟨rfl, rfl, rfl, rfl⟩
  · intro first second third hFirst hSecond
    exact ⟨hSecond.requestedPackage.trans hFirst.requestedPackage,
      hSecond.requestDigest.trans hFirst.requestDigest,
      hSecond.generation.trans hFirst.generation,
      hSecond.deadlineMonoNs.trans hFirst.deadlineMonoNs⟩
  · exact SameBindings.step

/-- No action moves a record back. -/
theorem rank_step (record : LifecycleRecord) (action : Action) :
    record.state.rank ≤ (record.step action).state.rank := by
  rcases step_permitted record action with hSame | hEdge
  · rw [hSame]
  · exact Nat.le_of_lt (RequestState.rank_lt_of_permits hEdge)

/-- An event that takes a record up to a rank from below happens at most once. -/
theorem atMostOnce_of_rank {event : LifecycleRecord → Action → Prop} (bound : Nat)
    (hBefore : ∀ record action, event record action → record.state.rank < bound)
    (hAfter : ∀ record action, event record action →
      bound ≤ (record.step action).state.rank)
    (start : LifecycleRecord) (actions : List Action) :
    AtMostOnce LifecycleRecord.step start actions event := by
  apply atMostOnce_of_settled (D := fun record => bound ≤ record.state.rank)
  · exact hAfter
  · intro record action hReached
    exact Nat.le_trans hReached (rank_step record action)
  · intro record action hReached hEvent
    exact Nat.not_le.mpr (hBefore record action hEvent) hReached

theorem acceptsPlan_once (start : LifecycleRecord) (actions : List Action) :
    AtMostOnce LifecycleRecord.step start actions AcceptsPlan := by
  apply atMostOnce_of_rank 1
  · intro record action hPlan
    rw [hPlan.states.1]
    decide
  · intro record action hPlan
    rw [hPlan.states.2]
    decide

theorem acceptsApproval_once (start : LifecycleRecord) (actions : List Action) :
    AtMostOnce LifecycleRecord.step start actions AcceptsApproval := by
  apply atMostOnce_of_rank 2
  · intro record action hApproval
    rw [hApproval.states.1]
    decide
  · intro record action hApproval
    rw [hApproval.states.2]
    decide

theorem acceptsExecution_once (start : LifecycleRecord) (actions : List Action) :
    AtMostOnce LifecycleRecord.step start actions AcceptsExecution := by
  apply atMostOnce_of_rank 3
  · intro record action hExecution
    rw [hExecution.states.1]
    decide
  · intro record action hExecution
    rw [hExecution.states.2]
    decide

/-- A record that was cancelled stays so. -/
theorem state_of_cancelled {start : LifecycleRecord} {actions : List Action}
    (h : Occurs LifecycleRecord.step start actions AcceptsCancel) :
    (run LifecycleRecord.step start actions).state = .cancelled := by
  obtain ⟨earlier, action, later, rfl, hCancel⟩ := h
  rw [run_append, run_cons]
  apply run_invariant (I := fun record : LifecycleRecord => record.state = .cancelled)
  · exact hCancel.state
  · intro record action hState
    have hClosed : record.state.isTerminal = true := by
      rw [hState]
      rfl
    obtain ⟨fault, hSame⟩ := perform_of_isTerminal hClosed action
    rw [LifecycleRecord.step, hSame]
    exact hState

end Runs

/-! ### The authority for an execution -/

/-- The actions hold, in this order and successful, a plan for the requested
package, an approval bound to the request and the start of the execution, the last
two in time and in the generation of the request. -/
def Authorised [Cryptography] (start : LifecycleRecord) (actions : List Action) :
    Prop :=
  ∃ toPlan plan toApproval approvalNow approvalGeneration decision toExecution
      executionNow executionGeneration afterwards,
    actions = toPlan ++ .applyPlan (.pending plan) :: toApproval ++
      .applyVerifiedDecision approvalNow approvalGeneration decision :: toExecution ++
      .beginExecution executionNow executionGeneration :: afterwards ∧
    ((run LifecycleRecord.step start toPlan).Accepts (.applyPlan (.pending plan)) ∧
      plan.packageName = start.requestedPackage) ∧
    ((run LifecycleRecord.step start
        (toPlan ++ .applyPlan (.pending plan) :: toApproval)).Accepts
        (.applyVerifiedDecision approvalNow approvalGeneration decision) ∧
      decision.decision = .approve ∧
      decision.requestDigest = start.requestDigest ∧
      decision.generation = start.generation ∧
      approvalNow < start.deadlineMonoNs ∧
      approvalGeneration = start.generation) ∧
    ((run LifecycleRecord.step start
        (toPlan ++ .applyPlan (.pending plan) :: toApproval ++
          .applyVerifiedDecision approvalNow approvalGeneration decision ::
            toExecution)).Accepts
        (.beginExecution executionNow executionGeneration) ∧
      executionNow < start.deadlineMonoNs ∧
      executionGeneration = start.generation)

/-- The three causes of an execution, found from the last to the first. -/
theorem authorised_of_executed [Cryptography] {start : LifecycleRecord}
    {actions : List Action} (hStart : start.state = .planning)
    (hExecuted : (run LifecycleRecord.step start actions).state ∈ EXECUTED) :
    Authorised start actions := by
  -- The search goes back from the execution to the approval and to the plan.
  have hUnexecuted : start.state ∉ EXECUTED := by
    rw [hStart]
    decide
  obtain ⟨untilExecution, starts, afterwards, rfl, hNotExecuted, hReached⟩ :=
    occurs_turn (Q := fun record : LifecycleRecord => record.state ∈ EXECUTED)
      hUnexecuted hExecuted
  obtain ⟨executionNow, executionGeneration, rfl, hExecutionNow, hExecutionGeneration,
    hExecution⟩ := executed_cause hNotExecuted hReached
  have hApproved : (run LifecycleRecord.step start untilExecution).state = .approved :=
    (AcceptsExecution.states ⟨⟨_, _, rfl⟩, hExecution⟩).1
  have hUnapproved : start.state ≠ .approved := by
    rw [hStart]
    decide
  obtain ⟨untilApproval, approves, toExecution, rfl, hNotApproved, hReached⟩ :=
    occurs_turn (Q := fun record : LifecycleRecord => record.state = .approved)
      hUnapproved hApproved
  obtain ⟨approvalNow, approvalGeneration, decision, rfl, hDecision, hDigest,
    hGeneration, hApprovalNow, hApprovalGeneration, hApproval⟩ :=
    approved_cause hNotApproved hReached
  have hPending : (run LifecycleRecord.step start untilApproval).state = .pending :=
    (AcceptsApproval.states ⟨⟨_, _, _, rfl, hDecision⟩, hApproval⟩).1
  have hUnplanned : start.state ≠ .pending := by
    rw [hStart]
    decide
  obtain ⟨toPlan, plans, toApproval, rfl, hNotPending, hReached⟩ :=
    occurs_turn (Q := fun record : LifecycleRecord => record.state = .pending)
      hUnplanned hPending
  obtain ⟨plan, rfl, hPackage, hPlan⟩ := plan_cause hNotPending hReached
  -- Each condition is about the record at its time, which is bound as the start is.
  have hAtPlan := SameBindings.run start toPlan
  have hAtApproval := SameBindings.run start
    (toPlan ++ .applyPlan (.pending plan) :: toApproval)
  have hAtExecution := SameBindings.run start
    (toPlan ++ .applyPlan (.pending plan) :: toApproval ++
      .applyVerifiedDecision approvalNow approvalGeneration decision :: toExecution)
  rw [hAtPlan.requestedPackage] at hPackage
  rw [hAtApproval.requestDigest] at hDigest
  rw [hAtApproval.generation] at hGeneration hApprovalGeneration
  rw [hAtApproval.deadlineMonoNs] at hApprovalNow
  rw [hAtExecution.generation] at hExecutionGeneration
  rw [hAtExecution.deadlineMonoNs] at hExecutionNow
  exact ⟨toPlan, plan, toApproval, approvalNow, approvalGeneration, decision,
    toExecution, executionNow, executionGeneration, afterwards, rfl,
    ⟨hPlan, hPackage⟩,
    ⟨hApproval, hDecision, hDigest, hGeneration, hApprovalNow, hApprovalGeneration⟩,
    hExecution, hExecutionNow, hExecutionGeneration⟩

/-- A record that is or was executing went through a plan, an approval and a start
of its execution, each exactly once, and was never cancelled. -/
theorem execution_authority [Cryptography] (requestId receiptId : PublicId)
    (requestedPackage : PackageName) (requestDigest : Digest)
    (generation deadlineMonoNs : UInt64) (actions : List Action) :
    let start := LifecycleRecord.new requestId receiptId requestedPackage
      requestDigest generation deadlineMonoNs
    (run LifecycleRecord.step start actions).state ∈ EXECUTED →
      Authorised start actions ∧
      AtMostOnce LifecycleRecord.step start actions AcceptsPlan ∧
      AtMostOnce LifecycleRecord.step start actions AcceptsApproval ∧
      AtMostOnce LifecycleRecord.step start actions AcceptsExecution ∧
      ¬ Occurs LifecycleRecord.step start actions AcceptsCancel := by
  intro start hExecuted
  refine ⟨authorised_of_executed rfl hExecuted, acceptsPlan_once start actions,
    acceptsApproval_once start actions, acceptsExecution_once start actions, ?_⟩
  intro hCancelled
  rw [state_of_cancelled hCancelled] at hExecuted
  exact absurd hExecuted (by decide)

/-- A decision that is bound to the sample record. -/
def sampleDecision (decision : Decision) : VerifiedDecision where
  requestDigest := ByteArr.fill 32 4
  generation := 0
  decision := decision
  assertionDigest := ByteArr.fill 32 5

def sampleFrozenPlan : FrozenPlan where
  packageName := sampleRequest.packageName
  manifestDigest := ByteArr.fill 32 1
  planDigest := ByteArr.fill 32 2
  actionCount := 1

/-- The sample record is planned, approved and executed, after actions in wrong
states. -/
def executedActions : List Action :=
  [.cancel 0 7, .applyPlan (.pending sampleFrozenPlan),
    .applyPlan (.pending sampleFrozenPlan),
    .applyVerifiedDecision 10 0 (sampleDecision .approve), .reconcile true,
    .beginExecution 11 0, .cancel 12 0, .finishExecution true false]

theorem execution_authority_sample :
    let start := @LifecycleRecord.new keyedHashCryptography sampleRequest.requestId
      sampleRequest.requestId sampleRequest.packageName (ByteArr.fill 32 4) 0 100
    (run (@LifecycleRecord.step keyedHashCryptography) start executedActions).state =
      .succeeded ∧
    @Authorised keyedHashCryptography start executedActions := by
  intro start
  have hState : (run (@LifecycleRecord.step keyedHashCryptography) start
      executedActions).state = .succeeded := by
    decide +kernel
  refine ⟨hState, ?_⟩
  have hAuthority := @execution_authority keyedHashCryptography
    sampleRequest.requestId sampleRequest.requestId sampleRequest.packageName
    (ByteArr.fill 32 4) 0 100 executedActions
  apply (hAuthority _).1
  rw [hState]
  decide

end Record
end Broker
end RootPermit
