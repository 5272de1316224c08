import RootPermit.Broker.Soundness

/-!
# The edges that are recorded

Two consecutive events of a chain record one move of a request.  What holds of
every move of a run therefore holds along every chain (`MovesAre.step`).  The moves
follow the documented lifecycle graph, with one exception: a new boot also expires
requests that are still being planned (`transitions_documented`).
-/

namespace RootPermit
namespace Broker

open Foundation Protocol

section Moves

variable [Cryptography] {store : BrokerStore} {requestId : PublicId}

/-- The moves that the chains of a store record satisfy `R`. -/
def MovesAre (R : PublicId → RequestState → RequestState → TransitionReason → Prop)
    (store : BrokerStore) : Prop :=
  ∀ requestId row log, store.database.request? requestId = some row →
    StoredLog requestId row.state (store.database.eventsOf requestId) log →
    log.IsChain fun first second =>
      R requestId first.state second.state second.reason

/-- The rows of a chain determine its log. -/
theorem StoredLog.unique {state state' : RequestState} {rows : List EventRow}
    {log log' : List LifecycleEvent} (h : StoredLog requestId state rows log)
    (h' : StoredLog requestId state' rows log') : log = log' := by
  have hRead : (Except.ok log : Except BrokerError _) = .ok log' := by
    rw [← mapM_eventOfRow h.fits, ← mapM_eventOfRow h'.fits, ← h.rows, ← h'.rows]
  exact Except.ok.inj hRead

/-- How the log of a request comes about in a step: it is the log from before, the
one event of a new request, or a log from before with the event of a move. -/
inductive LogStep (store : BrokerStore) (call : Call) (requestId : PublicId)
    (row : RequestRow) : List LifecycleEvent → Prop
  | kept {log : List LifecycleEvent}
      (hRow : store.database.request? requestId = some row)
      (hLog : StoredLog requestId row.state (store.database.eventsOf requestId) log) :
      LogStep store call requestId row log
  | created (event : LifecycleEvent) : LogStep store call requestId row [event]
  | moved {old : RequestRow} {earlier : List LifecycleEvent} {event : LifecycleEvent}
      (hRow : store.database.request? requestId = some old)
      (hLog : StoredLog requestId old.state (store.database.eventsOf requestId)
        earlier)
      (hDrives : Drives store.deviceIdBytes (Snapshots.at store.database.toTables)
        store.database.toTables requestId call old.state event.state event.reason)
      (hDone : store.call call = .ok (store.step call)) :
      LogStep store call requestId row (earlier ++ [event])

theorem logStep {call : Call} (hSound : store.Sound) {row : RequestRow}
    {log : List LifecycleEvent}
    (hRow : (store.step call).database.request? requestId = some row)
    (hLog : StoredLog requestId row.state
      ((store.step call).database.eventsOf requestId) log) :
    LogStep store call requestId row log := by
  rcases store.step_cases call with hSame | hDone
  · rw [hSame] at hRow hLog
    exact .kept hRow hLog
  cases Call.effect hDone requestId with
  | kept hKept _ =>
      have hBefore : store.database.request? requestId = some row :=
        (congrArg Dossier.row hKept).symm.trans hRow
      have hEvents : (store.step call).database.eventsOf requestId =
          store.database.eventsOf requestId := congrArg Dossier.events hKept
      rw [hEvents] at hLog
      exact .kept hBefore hLog
  | created request policy generation _ _ _ hCreated =>
      have hEvents : (store.step call).database.eventsOf requestId =
          [createdEvent requestId] := congrArg Dossier.events hCreated
      have hRows := hLog.rows
      rw [hEvents] at hRows
      obtain ⟨event, rfl, -⟩ := List.map_eq_singleton_iff.mp hRows.symm
      exact .created event
  | moved old new reason hMoved hDrives =>
      have hBefore : store.database.request? requestId = some old := hMoved.rowBefore
      obtain ⟨earlier, hEarlier⟩ := (hSound.requests requestId old hBefore).chain
      obtain ⟨event, hNext, hEvents⟩ := hMoved.event
      have hRows : (store.step call).database.eventsOf requestId =
          store.database.eventsOf requestId ++ [event.toRow requestId] := hEvents
      rw [hRows] at hLog
      obtain rfl : log = earlier ++ [event] := hLog.unique (hEarlier.append hNext)
      rw [← hNext.state, ← hNext.reason] at hDrives
      have hCall : store.call call = .ok (store.step call) := by
        unfold BrokerStore.call
        rw [hDone]
        rfl
      exact .moved hBefore hEarlier hDrives hCall

/-- What a call makes of the moves: it is enough that its own moves satisfy `R`. -/
theorem MovesAre.step
    {R : PublicId → RequestState → RequestState → TransitionReason → Prop}
    {call : Call} (h : MovesAre R store) (hSound : store.Sound)
    (hCall : ∀ requestId row target reason,
      store.database.request? requestId = some row →
      Drives store.deviceIdBytes (Snapshots.at store.database.toTables)
        store.database.toTables requestId call row.state target reason →
      R requestId row.state target reason) : MovesAre R (store.step call) := by
  intro requestId row log hRow hLog
  cases logStep hSound hRow hLog with
  | kept hBefore hLog => exact h requestId row log hBefore hLog
  | created event =>
      -- A new request has one event, and so no move.
      exact List.isChain_singleton event
  | @moved old earlier event hBefore hEarlier hDrives _ =>
      refine (h requestId old earlier hBefore hEarlier).append
        (List.isChain_singleton event) ?_
      intro last hLast head hHead
      obtain ⟨found, hFound, hState⟩ := hEarlier.last
      rw [hFound, Option.mem_some_iff] at hLast
      rw [List.head?_cons, Option.mem_some_iff] at hHead
      subst hLast hHead
      rw [hState]
      exact hCall requestId old event.state event.reason hBefore hDrives

theorem MovesAre.empty
    {R : PublicId → RequestState → RequestState → TransitionReason → Prop} :
    MovesAre R BrokerStore.empty := by
  intro requestId row log hRow
  cases hRow

/-- The events that are read back record moves that satisfy `R`. -/
theorem MovesAre.events
    {R : PublicId → RequestState → RequestState → TransitionReason → Prop}
    (h : MovesAre R store) (hSound : store.Sound) {chain : List LifecycleEvent}
    (hChain : Broker.events requestId store.database.toTables = .ok chain) :
    chain.IsChain fun first second =>
      R requestId first.state second.state second.reason := by
  cases hRow : store.database.request? requestId with
  | none =>
      have hEvents : store.database.eventsOf requestId = [] :=
        congrArg Dossier.events (dossier_of_absent hRow)
      unfold Broker.events at hChain
      rw [hEvents] at hChain
      cases hChain
      exact List.isChain_nil
  | some row =>
      obtain ⟨log, hLog⟩ := (hSound.requests requestId row hRow).chain
      rw [hLog.events_eq, Except.ok.injEq] at hChain
      rw [← hChain]
      exact h requestId row log hRow hLog

end Moves

/-! ### The documented graph -/

/-- The moves of the documented graph, and the expiry of planned work by a new
boot. -/
def RecordedMove (_ : PublicId) (source target : RequestState)
    (reason : TransitionReason) : Prop :=
  source.permits target = true ∨
    (source = .planning ∧ target = .expired ∧ reason = .expired)

theorem Drives.recordedMove [Cryptography] {deviceIdBytes : ByteArr 16}
    {snapshots : Snapshots} {before : Tables} {requestId : PublicId} {call : Call}
    {source target : RequestState} {reason : TransitionReason}
    (h : Drives deviceIdBytes snapshots before requestId call source target reason) :
    RecordedMove requestId source target reason := by
  cases h with
  | nonterminal _ _ _ hEdge => exact Or.inl hEdge
  | prepared => exact Or.inl rfl
  | terminal _ _ _ _ _ _ hEdge => exact Or.inl hEdge
  | reconciled succeeded =>
      left
      cases succeeded <;> rfl
  | booted _ _ _ _ _ hSource =>
      -- The graph has no edge from planning to expired.
      rcases List.mem_cons.mp hSource with rfl | hSource
      · exact Or.inr ⟨rfl, rfl, rfl⟩
      · left
        rcases List.mem_cons.mp hSource with rfl | hSource
        · rfl
        · rw [List.mem_singleton.mp hSource]
          rfl
  | lapsed _ _ _ _ _ hTarget =>
      left
      rcases hTarget with rfl | rfl <;> rfl
  | decided _ _ _ _ _ verified =>
      left
      cases verified.decision <;> rfl

theorem movesAre_recordedMove [Cryptography] (calls : List Call) :
    (run BrokerStore.step BrokerStore.empty calls).Sound ∧
      MovesAre RecordedMove (run BrokerStore.step BrokerStore.empty calls) := by
  apply run_invariant (I := fun store : BrokerStore =>
    store.Sound ∧ MovesAre RecordedMove store)
  · exact ⟨BrokerStore.Sound.empty, MovesAre.empty⟩
  · intro store call h
    refine ⟨BrokerStore.Sound.step store call h.1, h.2.step h.1 ?_⟩
    intro requestId row target reason _ hDrives
    exact hDrives.recordedMove

/-- In every reachable store, two consecutive events of a request are joined by an
edge of the lifecycle graph, or they record the expiry of planned work by a new
boot. -/
theorem transitions_documented [Cryptography] (calls : List Call) :
    let store := run BrokerStore.step BrokerStore.empty calls
    ∀ requestId chain, events requestId store.database.toTables = .ok chain →
      ∀ front first second back, chain = front ++ first :: second :: back →
        first.state.permits second.state = true ∨
          (first.state = .planning ∧ second.state = .expired ∧
            second.reason = .expired) := by
  intro store requestId chain hChain front first second back hShape
  obtain ⟨hSound, hMoves⟩ := movesAre_recordedMove calls
  exact List.isChain_iff_forall_rel_of_append_cons_cons.mp
    (hMoves.events hSound hChain) hShape

/-- A new boot finds the sample request in planning. -/
def plannedBootRun : List Call :=
  [.initializeIdentity sampleSigner (some (ByteArr.fill 16 9)),
    .submit sampleRequest allowAll,
    .startBoot 1 sampleSigner 5 fun _ => some (ByteArr.fill 16 3)]

theorem events_plannedBootRun :
    ∃ first second, events sampleRequest.requestId
        (run (@BrokerStore.step keyedHashCryptography) BrokerStore.empty
          plannedBootRun).database.toTables = .ok [first, second] ∧
      first.state = .planning ∧ second.state = .expired := by
  have hChain : (events sampleRequest.requestId
      (run (@BrokerStore.step keyedHashCryptography) BrokerStore.empty
        plannedBootRun).database.toTables).map
      (List.map LifecycleEvent.state) = .ok [.planning, .expired] := by
    decide +kernel
  obtain ⟨chain, hRead, hStates⟩ := map_eq_ok_iff.mp hChain
  have hLength : chain.length = 2 := by
    rw [← List.length_map LifecycleEvent.state, hStates]
    rfl
  obtain ⟨first, second, rfl⟩ := List.length_eq_two.mp hLength
  rw [List.map_cons, List.map_cons, List.cons.injEq, List.cons.injEq] at hStates
  exact ⟨first, second, hRead, hStates.1, hStates.2.1⟩

/-- The two events of the sample run are joined by the exception. -/
theorem transitions_documented_sample :
    ∃ first second, events sampleRequest.requestId
        (run (@BrokerStore.step keyedHashCryptography) BrokerStore.empty
          plannedBootRun).database.toTables = .ok [first, second] ∧
      first.state = .planning ∧ second.state = .expired ∧
      second.reason = .expired := by
  obtain ⟨first, second, hRead, hFirst, hSecond⟩ := events_plannedBootRun
  refine ⟨first, second, hRead, ?_⟩
  have hMove := @transitions_documented keyedHashCryptography plannedBootRun
    sampleRequest.requestId _ hRead [] first second [] rfl
  rcases hMove with hEdge | hBoot
  · rw [hFirst, hSecond] at hEdge
    cases hEdge
  · exact hBoot

/-- The expiry of planned work is not an edge of the graph. -/
theorem planned_expiry_undocumented :
    ¬ ∀ chain, events sampleRequest.requestId
        (run (@BrokerStore.step keyedHashCryptography) BrokerStore.empty
          plannedBootRun).database.toTables = .ok chain →
      ∀ front first second back, chain = front ++ first :: second :: back →
        first.state.permits second.state = true := by
  intro h
  obtain ⟨first, second, hRead, hFirst, hSecond⟩ := events_plannedBootRun
  have hEdge := h _ hRead [] first second [] rfl
  rw [hFirst, hSecond] at hEdge
  cases hEdge

end Broker
end RootPermit
