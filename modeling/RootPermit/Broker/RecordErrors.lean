import RootPermit.Broker.Record

/-!
# What a failed operation of a record changes

The operations before execution look at the clock and at the credential generation
first.  When one of them has moved past an open record, the record is closed and the
operation still fails.  No other failure changes anything.

* `preExecutionGuard_of_lapses`, `preExecutionGuard_of_not_lapses` — the guard, said once
  for both of its ways;
* `step_of_error` — a failure without a lapse leaves the record as it is;
* `perform_of_lapses` — a lapse is the outcome, whatever the operation was asked to do;
* `errors_close_or_keep` — the two together, in every reachable record.
-/

namespace RootPermit
namespace Broker
namespace Record

open Foundation Protocol

/-- The clock and the active generation of an operation that the guard precedes. -/
def Action.guarded? : Action → Option (UInt64 × UInt64)
  | .applyVerifiedDecision nowMonoNs activeGeneration _
  | .cancel nowMonoNs activeGeneration
  | .beginExecution nowMonoNs activeGeneration => some (nowMonoNs, activeGeneration)
  | _ => none

/-- An open record is past its deadline, or in time but of another generation. -/
inductive Lapses (record : LifecycleRecord) (nowMonoNs activeGeneration : UInt64) :
    RequestState → TransitionReason → Prop where
  | expired (hOpen : record.state = .pending ∨ record.state = .approved)
      (hLate : record.deadlineMonoNs ≤ nowMonoNs) :
      Lapses record nowMonoNs activeGeneration .expired .expired
  | stale (hOpen : record.state = .pending ∨ record.state = .approved)
      (hInTime : nowMonoNs < record.deadlineMonoNs)
      (hOther : activeGeneration ≠ record.generation) :
      Lapses record nowMonoNs activeGeneration .stale .generationStale

/-- The record was closed by one move: it has one event more and the receipt of its new
state, and nothing else is different. -/
structure ClosedBy [Cryptography] (before : LifecycleRecord) (next : RequestState)
    (reason : TransitionReason) (after : LifecycleRecord) : Prop where
  state : after.state = next
  events : ∃ event, after.events = before.events ++ [event] ∧
    event.sequence.toNat = before.events.length + 1 ∧
    event.previousEventDigest = before.events.getLast?.map LifecycleEvent.eventDigest ∧
    event.state = next ∧ event.reason = reason ∧
    event.eventDigest = lifecycleEventDigest before.requestId event.sequence
      event.previousEventDigest next reason
  receipt : ∃ draft, after.receipt = some draft ∧ draft.Carries after
  requestId : after.requestId = before.requestId
  receiptId : after.receiptId = before.receiptId
  requestedPackage : after.requestedPackage = before.requestedPackage
  requestDigest : after.requestDigest = before.requestDigest
  generation : after.generation = before.generation
  deadlineMonoNs : after.deadlineMonoNs = before.deadlineMonoNs
  plan : after.plan = before.plan

section Guard

variable {record : LifecycleRecord} {action : Action}
  {nowMonoNs activeGeneration : UInt64} {next : RequestState}
  {reason : TransitionReason}

theorem Lapses.isOpen (h : Lapses record nowMonoNs activeGeneration next reason) :
    record.state = .pending ∨ record.state = .approved := by
  cases h with
  | expired hOpen _ => exact hOpen
  | stale hOpen _ _ => exact hOpen

theorem Lapses.isTerminal (h : Lapses record nowMonoNs activeGeneration next reason) :
    next.isTerminal = true := by
  cases h <;> rfl

theorem Lapses.permits (h : Lapses record nowMonoNs activeGeneration next reason) :
    record.state.permits next = true := by
  cases h with
  | expired hOpen _ => rcases hOpen with hOpen | hOpen <;> rw [hOpen] <;> rfl
  | stale hOpen _ _ => rcases hOpen with hOpen | hOpen <;> rw [hOpen] <;> rfl

variable [Cryptography]

/-- The guard closes a record that has lapsed, and fails. -/
theorem preExecutionGuard_of_lapses
    (h : Lapses record nowMonoNs activeGeneration next reason) :
    record.preExecutionGuard nowMonoNs activeGeneration =
      (.error .alreadyTerminal, record.winner next reason) := by
  have hState : record.state.isTerminal = false := by
    rcases h.isOpen with hOpen | hOpen <;> rw [hOpen] <;> rfl
  unfold LifecycleRecord.preExecutionGuard
  rw [hState]
  cases h with
  | expired hOpen hLate => simp [hOpen, hLate]
  | stale hOpen hInTime hOther => simp [hOpen, hInTime, hOther]

/-- The guard never changes a record that has not lapsed. -/
theorem preExecutionGuard_of_not_lapses
    (h : ∀ next reason, ¬ Lapses record nowMonoNs activeGeneration next reason) :
    record.preExecutionGuard nowMonoNs activeGeneration = (.ok (), record) ∨
      record.preExecutionGuard nowMonoNs activeGeneration =
        (.error .alreadyTerminal, record) := by
  unfold LifecycleRecord.preExecutionGuard
  split
  · exact .inr rfl
  split
  · rename_i hLate
    exact absurd (.expired hLate.1 hLate.2) (h _ _)
  split
  · rename_i hEarly hStale
    have hInTime : nowMonoNs < record.deadlineMonoNs :=
      UInt64.not_le.mp fun hLate => hEarly ⟨hStale.1, hLate⟩
    exact absurd (.stale hStale.1 hInTime hStale.2) (h _ _)
  · exact .inl rfl

/-- Where the record has not lapsed, a failure leaves it as it is. -/
theorem step_of_error {fault : LifecycleError}
    (hKept : ∀ nowMonoNs activeGeneration,
      action.guarded? = some (nowMonoNs, activeGeneration) →
      ∀ next reason, ¬ Lapses record nowMonoNs activeGeneration next reason)
    (h : (record.perform action).1 = .error fault) : record.step action = record := by
  unfold LifecycleRecord.step
  -- The guarded operations first: their guard passes, or it fails and changes nothing.
  cases action with
  | applyVerifiedDecision nowMonoNs activeGeneration decision =>
      simp only [LifecycleRecord.perform, LifecycleRecord.applyVerifiedDecision] at h ⊢
      rcases preExecutionGuard_of_not_lapses (hKept _ _ rfl) with hGuard | hGuard
      · simp only [hGuard] at h ⊢
        split_ifs at h ⊢
        · rfl
        · rfl
        · rfl
        · split at h <;> cases h
      · rw [hGuard]
  | cancel nowMonoNs activeGeneration =>
      simp only [LifecycleRecord.perform, LifecycleRecord.cancel] at h ⊢
      rcases preExecutionGuard_of_not_lapses (hKept _ _ rfl) with hGuard | hGuard
      · simp only [hGuard] at h ⊢
        split_ifs at h ⊢
        · cases h
        · rfl
      · rw [hGuard]
  | beginExecution nowMonoNs activeGeneration =>
      simp only [LifecycleRecord.perform, LifecycleRecord.beginExecution] at h ⊢
      rcases preExecutionGuard_of_not_lapses (hKept _ _ rfl) with hGuard | hGuard
      · simp only [hGuard] at h ⊢
        split_ifs at h ⊢
        · rfl
        · cases h
      · rw [hGuard]
  | applyPlan outcome =>
      simp only [LifecycleRecord.perform, LifecycleRecord.applyPlan] at h ⊢
      split_ifs at h ⊢
      · rfl
      · cases outcome with
        | pending plan =>
            dsimp only at h ⊢
            split_ifs at h ⊢
            · rfl
            · cases h
        | noChange code => cases h
        | invalid code => cases h
  | finishExecution succeeded recoveryRequired =>
      simp only [LifecycleRecord.perform, LifecycleRecord.finishExecution] at h ⊢
      split_ifs at h ⊢
      · rfl
      · -- Only the contradictory report is refused.
        cases succeeded <;> cases recoveryRequired <;> first | rfl | cases h
  | reconcile succeeded =>
      simp only [LifecycleRecord.perform, LifecycleRecord.reconcile] at h ⊢
      split_ifs at h ⊢
      · rfl
      · cases h
      · cases h

/-- A lapse is the outcome of every operation that the guard precedes. -/
theorem perform_of_lapses (hGuarded : action.guarded? =
      some (nowMonoNs, activeGeneration))
    (h : Lapses record nowMonoNs activeGeneration next reason) :
    record.perform action = (.error .alreadyTerminal, record.winner next reason) := by
  have hGuard := preExecutionGuard_of_lapses h
  cases action with
  | applyVerifiedDecision now active decision =>
      cases hGuarded
      simp only [LifecycleRecord.perform, LifecycleRecord.applyVerifiedDecision, hGuard]
  | cancel now active =>
      cases hGuarded
      simp only [LifecycleRecord.perform, LifecycleRecord.cancel, hGuard]
  | beginExecution now active =>
      cases hGuarded
      simp only [LifecycleRecord.perform, LifecycleRecord.beginExecution, hGuard]
  | applyPlan outcome => cases hGuarded
  | finishExecution succeeded recoveryRequired => cases hGuarded
  | reconcile succeeded => cases hGuarded

/-- A lapse closes a coherent record by one move. -/
theorem closedBy_of_lapses (hRecord : Coherent record)
    (h : Lapses record nowMonoNs activeGeneration next reason) :
    ClosedBy record next reason (record.winner next reason) := by
  have hChained : Chained (record.winner next reason) :=
    hRecord.toChained.winner h.permits
  have hRank := record.state.rank_le
  have hLength := hRecord.length
  have hFollows : (lifecycleLog record.requestId).Follows record.events.getLast?
      (record.nextEvent next reason) :=
    nextEvent_follows hRecord.linked (by omega)
  refine ⟨winner_state next reason, ⟨record.nextEvent next reason,
    winner_events next reason, ?_, rfl, rfl, rfl, ?_⟩,
    ⟨_, ?_, makeReceipt_carries hChained⟩, winner_requestId next reason, ?_,
    winner_requestedPackage next reason, ?_, ?_, ?_, winner_plan next reason⟩
  · have hPosition := hFollows.1
    rw [LogFormat.getLast?_position_of_range hRecord.linked.positions] at hPosition
    simp only [lifecycleLog] at hPosition
    rw [hPosition]
  · simp only [LifecycleRecord.nextEvent]
  · rw [winner_receipt, if_pos h.isTerminal]
  all_goals
    unfold LifecycleRecord.winner
    split <;> rfl

end Guard

/-- In every reachable record: an operation that fails leaves the record as it is, or
it is one that the guard precedes, the record was open and has lapsed, and the record is
closed for that.  The second is what happens whenever such an operation meets a record
that has lapsed, whatever it asks for. -/
theorem errors_close_or_keep [Cryptography] (requestId receiptId : PublicId)
    (requestedPackage : PackageName) (requestDigest : Digest)
    (generation deadlineMonoNs : UInt64) (actions : List Action) :
    let record := run LifecycleRecord.step (LifecycleRecord.new requestId receiptId
      requestedPackage requestDigest generation deadlineMonoNs) actions
    ∀ action : Action,
      (∀ fault, (record.perform action).1 = .error fault →
        record.step action = record ∨
        ∃ nowMonoNs activeGeneration next reason,
          action.guarded? = some (nowMonoNs, activeGeneration) ∧
          Lapses record nowMonoNs activeGeneration next reason ∧
          fault = .alreadyTerminal ∧
          ClosedBy record next reason (record.step action)) ∧
      ∀ nowMonoNs activeGeneration next reason,
        action.guarded? = some (nowMonoNs, activeGeneration) →
        Lapses record nowMonoNs activeGeneration next reason →
        (record.perform action).1 = .error .alreadyTerminal ∧
          ClosedBy record next reason (record.step action) := by
  intro record action
  have hRecord : Coherent record := run_invariant (Coherent.new requestId receiptId
    requestedPackage requestDigest generation deadlineMonoNs) Coherent.step actions
  have hLapsed : ∀ nowMonoNs activeGeneration next reason,
      action.guarded? = some (nowMonoNs, activeGeneration) →
      Lapses record nowMonoNs activeGeneration next reason →
      (record.perform action).1 = .error .alreadyTerminal ∧
        ClosedBy record next reason (record.step action) := by
    intro nowMonoNs activeGeneration next reason hGuarded hLapses
    unfold LifecycleRecord.step
    rw [perform_of_lapses hGuarded hLapses]
    exact ⟨rfl, closedBy_of_lapses hRecord hLapses⟩
  refine ⟨?_, hLapsed⟩
  intro fault hFault
  by_cases hKept : ∀ nowMonoNs activeGeneration,
      action.guarded? = some (nowMonoNs, activeGeneration) →
      ∀ next reason, ¬ Lapses record nowMonoNs activeGeneration next reason
  · exact .inl (step_of_error hKept hFault)
  · push Not at hKept
    obtain ⟨nowMonoNs, activeGeneration, hGuarded, next, reason, hLapses⟩ := hKept
    obtain ⟨hError, hClosed⟩ := hLapsed _ _ _ _ hGuarded hLapses
    rw [hError, Except.error.injEq] at hFault
    exact .inr ⟨nowMonoNs, activeGeneration, next, reason, hGuarded, hLapses,
      hFault.symm, hClosed⟩

end Record
end Broker
end RootPermit
