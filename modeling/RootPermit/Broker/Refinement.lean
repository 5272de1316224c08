import RootPermit.Broker.Histories
import RootPermit.Broker.WallClock
import RootPermit.Broker.Edges

/-!
# The store and the record

The lifecycle is implemented twice: by the record, and by the transactions of the store,
for which the record is to be the authority.  They share the histories of the requests.

* `store_refines_record` — a history that the store keeps is one of a record, event for
  event, unless it takes one of two shortcuts;
* `history_realised` — the store can take a planned request through every history of the
  lifecycle.
-/

namespace RootPermit
namespace Broker

open Foundation Protocol

/-! ### The histories of the store -/

/-- The two moves of the store that are not moves of the lifecycle: a new boot expires
work that is being planned, and the generic transition closes a request in recovery as
if it had just been executed. -/
def Shortcut (source target : RequestState) (reason : TransitionReason) : Prop :=
  (source = .planning ∧ target = .expired ∧ reason = .expired) ∨
    (source = .recoveryRequired ∧
      ((target = .succeeded ∧ reason = .executionSucceeded) ∨
        (target = .failed ∧ reason = .executionFailed)))

theorem not_shortcut_of_lifecycleMove {source target : RequestState}
    {reason : TransitionReason} (h : lifecycleMove source reason = some target) :
    ¬ Shortcut source target reason := by
  rintro (⟨rfl, rfl, rfl⟩ | ⟨rfl, ⟨rfl, rfl⟩ | ⟨rfl, rfl⟩⟩) <;> cases h

/-- A permitted transition with the reason of its target. -/
theorem lifecycleMove_or_shortcut {source target : RequestState}
    (h : source.permits target = true) :
    lifecycleMove source (transitionReason target) = some target ∨
      Shortcut source target (transitionReason target) := by
  cases source <;> cases target <;> cases h <;>
    first
      | exact .inl rfl
      | exact .inr (.inr ⟨rfl, .inl ⟨rfl, rfl⟩⟩)
      | exact .inr (.inr ⟨rfl, .inr ⟨rfl, rfl⟩⟩)

section Store

variable [Cryptography] {requestId : PublicId}

theorem Drives.lifecycleMove_or_shortcut {deviceIdBytes : ByteArr 16}
    {snapshots : Snapshots} {before : Tables} {call : Call}
    {source target : RequestState} {reason : TransitionReason}
    (h : Drives deviceIdBytes snapshots before requestId call source target reason) :
    lifecycleMove source reason = some target ∨ Shortcut source target reason := by
  cases h with
  | nonterminal _ _ _ hEdge => exact Broker.lifecycleMove_or_shortcut hEdge
  | prepared => exact .inl rfl
  | terminal _ _ _ _ _ _ hEdge => exact Broker.lifecycleMove_or_shortcut hEdge
  | reconciled succeeded =>
      left
      cases succeeded <;> rfl
  | booted _ _ _ _ _ hSource =>
      rcases List.mem_cons.mp hSource with rfl | hSource
      · exact .inr (.inl ⟨rfl, rfl, rfl⟩)
      · left
        rcases List.mem_cons.mp hSource with rfl | hSource
        · rfl
        · rw [List.mem_singleton.mp hSource]
          rfl
  | lapsed _ _ _ _ _ hTarget =>
      left
      rcases hTarget with rfl | rfl <;> rfl
  | decided _ _ _ _ _ verified =>
      left
      cases verified.decision <;> rfl

theorem movesAre_lifecycleMove_or_shortcut (calls : List Call) :
    (run BrokerStore.step BrokerStore.empty calls).Sound ∧
      MovesAre (fun _ source target reason =>
        lifecycleMove source reason = some target ∨ Shortcut source target reason)
        (run BrokerStore.step BrokerStore.empty calls) := by
  apply run_invariant (I := fun store : BrokerStore =>
    store.Sound ∧ MovesAre _ store)
  · exact ⟨BrokerStore.Sound.empty, MovesAre.empty⟩
  · intro store call h
    refine ⟨BrokerStore.Sound.step store call h.1, h.2.step h.1 ?_⟩
    intro requestId row target reason _ hDrives
    exact hDrives.lifecycleMove_or_shortcut

/-- The chain that is read back is the log of the rows. -/
theorem exists_storedLog {store : BrokerStore} (hSound : store.Sound)
    {chain : List LifecycleEvent} (hChain : events requestId store.database.toTables =
      .ok chain) (hSome : chain ≠ []) :
    ∃ row, store.database.request? requestId = some row ∧
      StoredLog requestId row.state (store.database.eventsOf requestId) chain := by
  cases hRow : store.database.request? requestId with
  | none =>
      have hEvents : store.database.eventsOf requestId = [] :=
        congrArg Dossier.events (dossier_of_absent hRow)
      unfold Broker.events at hChain
      rw [hEvents] at hChain
      cases hChain
      exact absurd rfl hSome
  | some row =>
      obtain ⟨log, hLog⟩ := (hSound.requests requestId row hRow).chain
      rw [hLog.events_eq, Except.ok.injEq] at hChain
      exact ⟨row, rfl, hChain ▸ hLog⟩

/-- In every reachable store, the moves of a request are those of the lifecycle and the
two shortcuts.  Its events are the events of a record, sequences, links and digests
included, if and only if none of its moves is a shortcut and the record has the time for
them, which every record with a deadline other than zero has. -/
theorem store_refines_record (calls : List Call) (requestId receiptId : PublicId)
    (requestedPackage : PackageName) (requestDigest : Digest)
    (generation deadlineMonoNs : UInt64) (chain : List LifecycleEvent)
    (hChain : events requestId
      (run BrokerStore.step BrokerStore.empty calls).database.toTables = .ok chain)
    (hSome : chain ≠ []) :
    (∀ front first second back, chain = front ++ first :: second :: back →
      lifecycleMove first.state second.reason = some second.state ∨
        Shortcut first.state second.state second.reason) ∧
    ((∃ actions, (run Record.LifecycleRecord.step
        (Record.LifecycleRecord.new requestId receiptId requestedPackage requestDigest
          generation deadlineMonoNs) actions).events = chain) ↔
      (∀ front first second back, chain = front ++ first :: second :: back →
        ¬ Shortcut first.state second.state second.reason) ∧
      Record.InTime deadlineMonoNs chain) := by
  obtain ⟨hSound, hMoves⟩ := movesAre_lifecycleMove_or_shortcut calls
  obtain ⟨row, hRow, hLog⟩ := exists_storedLog hSound hChain hSome
  have hEach := List.isChain_iff_forall_rel_of_append_cons_cons.mp
    (hMoves.events hSound hChain)
  refine ⟨fun front first second back hShape => hEach hShape, ?_⟩
  have hPlain : History requestId chain ↔
      ∀ front first second back, chain = front ++ first :: second :: back →
        ¬ Shortcut first.state second.state second.reason := by
    constructor
    · intro hHistory front first second back hShape
      exact not_shortcut_of_lifecycleMove
        (List.isChain_iff_forall_rel_of_append_cons_cons.mp hHistory.moves hShape)
    · intro hPlain
      refine ⟨hLog.linked, hLog.first, ?_⟩
      rw [List.isChain_iff_forall_rel_of_append_cons_cons]
      intro first second front back hShape
      exact (hEach hShape).resolve_right (hPlain front first second back hShape)
  rw [← hPlain]
  constructor
  · rintro ⟨actions, rfl⟩
    have hMade := Record.made_run requestId receiptId requestedPackage requestDigest
      generation deadlineMonoNs actions
    have hInTime := hMade.inTime
    rw [Record.deadlineMonoNs_of_bindings hMade.bindings] at hInTime
    exact ⟨hMade.history, hInTime⟩
  · rintro ⟨hHistory, hInTime⟩
    exact Record.exists_actions requestId receiptId requestedPackage requestDigest
      generation deadlineMonoNs hHistory hInTime

end Store

/-- No record has the history of the sample request that a new boot expires while it is
being planned. -/
theorem store_refines_record_sample :
    ∃ chain, events sampleRequest.requestId
        (run (@BrokerStore.step keyedHashCryptography) BrokerStore.empty
          plannedBootRun).database.toTables = .ok chain ∧
      ¬ ∃ actions, (run (@Record.LifecycleRecord.step keyedHashCryptography)
        (@Record.LifecycleRecord.new keyedHashCryptography sampleRequest.requestId
          sampleRequest.requestId sampleRequest.packageName (ByteArr.fill 32 0) 0 1)
        actions).events = chain := by
  obtain ⟨first, second, hRead, hFirst, hSecond⟩ := events_plannedBootRun
  refine ⟨[first, second], hRead, ?_⟩
  have hRefines := @store_refines_record keyedHashCryptography plannedBootRun
    sampleRequest.requestId sampleRequest.requestId sampleRequest.packageName
    (ByteArr.fill 32 0) 0 1 [first, second] hRead (List.cons_ne_nil _ _)
  rw [hRefines.2]
  rintro ⟨hPlain, -⟩
  rcases hRefines.1 [] first second [] rfl with hMove | hShortcut
  · rw [hFirst, hSecond] at hMove
    cases hReason : second.reason <;> rw [hReason] at hMove <;> cases hMove
  · exact hPlain [] first second [] rfl hShortcut

/-! ### Histories that the store can make -/

section Realise

variable [Cryptography] {requestId : PublicId}

theorem BrokerStore.step_eq_of_transaction {store : BrokerStore} {call : Call}
    {result : ByteArr 16} {after : Database}
    (h : call.transaction store.deviceIdBytes (Snapshots.at store.database.toTables)
      store.database = .ok (result, after)) :
    store.step call = { database := after, deviceIdBytes := result } := by
  unfold BrokerStore.step BrokerStore.call
  rw [h]
  rfl

/-- A call that has to move a request adds the event of its move to the log. -/
theorem storedLog_step {store : BrokerStore} {call : Call} {row : RequestRow}
    {log : List LifecycleEvent} {target : RequestState} {reason : TransitionReason}
    {result : ByteArr 16} {after : Database}
    (hRow : store.database.request? requestId = some row)
    (hLog : StoredLog requestId row.state (store.database.eventsOf requestId) log)
    (hConcerns : call.Concerns requestId store.database.toTables)
    (hDone : call.transaction store.deviceIdBytes
      (Snapshots.at store.database.toTables) store.database = .ok (result, after))
    (hDrives : ∀ new cause, Drives store.deviceIdBytes
      (Snapshots.at store.database.toTables) store.database.toTables requestId call
        row.state new cause → new = target ∧ cause = reason) :
    ∃ event, event.state = target ∧ event.reason = reason ∧
      StoredLog requestId target (after.eventsOf requestId) (log ++ [event]) := by
  cases Call.effect hDone requestId with
  | kept _ hSpared => exact absurd hConcerns hSpared
  | created _ _ _ _ _ hAbsent =>
      change store.database.request? requestId = none at hAbsent
      rw [hRow] at hAbsent
      cases hAbsent
  | moved old new cause hMoved hCause =>
      have hOld : row = old := Option.some.inj (hRow.symm.trans hMoved.rowBefore)
      subst hOld
      obtain ⟨hTarget, hReason⟩ := hDrives new.state cause hCause
      obtain ⟨event, hNext, hEvents⟩ := hMoved.event
      rw [hTarget, hReason] at hNext
      change after.eventsOf requestId =
        store.database.eventsOf requestId ++ [event.toRow requestId] at hEvents
      rw [hEvents]
      exact ⟨event, hNext.state, hNext.reason, hLog.append hNext⟩

/-- Where the counter does not overflow, the two ways of counting agree. -/
theorem insertEvent_saturating {next : RequestState} {reason : TransitionReason}
    {before after : Database}
    (h : insertEvent requestId next reason checkedSucc before = .ok ((), after)) :
    insertEvent requestId next reason (fun sequence => some (saturatingSucc sequence))
      before = .ok ((), after) := by
  simp only [insertEvent, run_bind_eq_ok_iff, query_eq_ok_iff, attempt_eq_ok_iff,
    orFault_eq_ok_iff] at h ⊢
  obtain ⟨latest, _, hLatest, current, _, hCurrent, sequence, _, ⟨hSequence, hSame⟩,
    hRest⟩ := h
  refine ⟨latest, _, hLatest, current, _, hCurrent, sequence, _, ⟨?_, hSame⟩, hRest⟩
  rw [saturatingSucc, hSequence, Option.getD_some]

section Extend

variable {row : RequestRow} {before : Database} {signer : BrokerSigningKey}
  {nowUtc : Int64} {entropy : Entropy} {pinned : IdentityRow}

/-- A permitted transition of an open request to another open state is recorded. -/
theorem transitionNonterminal_succeeds {next : RequestState}
    (h : OpenRequest requestId row (before.dossier requestId))
    (hOpen : next.isTerminal = false) (hEdge : row.state.permits next = true) :
    Succeeds (transitionNonterminal requestId row.state next) before := by
  obtain ⟨after, hAppend⟩ : ∃ after, appendTransition requestId (some row.state) next
      (transitionReason next) before = .ok ((), after) := appendTransition_ok h (by simp)
  rw [appendTransition, run_bind_eq_ok_iff] at hAppend
  obtain ⟨_, between, hSet, hInsert⟩ := hAppend
  have hAllowed : ¬ (next.isTerminal = true ∨ row.state.permits next = false) := by
    rw [hOpen, hEdge]
    decide
  refine ⟨next, after, ?_⟩
  simp only [transitionNonterminal, run_bind_eq_ok_iff, attempt_eq_ok_iff,
    rejectIf_eq_ok_iff, run_pure_eq_ok_iff]
  exact ⟨(), before, ⟨hAllowed, rfl⟩, (), between, hSet, (), after,
    insertEvent_saturating hInsert, trivial, rfl⟩

/-- A request in recovery is reconciled. -/
theorem reconcileRecovery_succeeds {succeeded : Bool} {evidence : Bytes}
    (hIdentity : before.brokerIdentity = some pinned) (hNames : pinned.Names signer)
    (h : OpenRequest requestId row (before.dossier requestId))
    (hState : row.state = .recoveryRequired) (hId : requestId.IsRandom)
    (hFresh : FreshReceiptId entropy before.receipts) (hClock : row.createdUtc ≤ nowUtc)
    (hEvidence : ¬ (evidence = [] ∨ 65536 < evidence.length)) :
    Succeeds (reconcileRecovery requestId succeeded evidence signer nowUtc entropy)
      before := by
  obtain ⟨between, hAppend⟩ : ∃ between, appendTransition requestId
      (some .recoveryRequired) (if succeeded then .succeeded else .failed)
      (if succeeded then .reconciledSucceeded else .reconciledFailed) before =
        .ok ((), between) :=
    appendTransition_ok h (by simp [hState])
  obtain ⟨hRow, hReceipts, hAll, -⟩ := appendTransition_dossier h.found hAppend
  -- The evidence is stored in the row that the receipt is made from.
  have hKeepsId : ∀ row : RequestRow,
      ({ row with recoveryEvidence := some evidence } : RequestRow).requestId =
        row.requestId := fun _ => rfl
  obtain ⟨middle, hUpdate, hMiddle⟩ : ∃ middle, updateRequest requestId
      (fun row => { row with recoveryEvidence := some evidence }) between =
        .ok ((), middle) ∧ middle.toTables = between.toTables.modifyRequest requestId
          fun row => { row with recoveryEvidence := some evidence } := by
    refine execute_ok (between.constraints.modifyRequest
      (fun row => ⟨rfl, rfl, rfl, rfl, rfl, rfl, rfl, rfl⟩) ?_ fun _ _ hActive => hActive)
    intro found hFound
    have hChecked : found.Checked := Database.checked_of_request? hFound
    exact hChecked
  have hDossier : middle.dossier requestId =
      { between.dossier requestId with
        row := (between.dossier requestId).row.map fun row =>
          { row with recoveryEvidence := some evidence } } := by
    rw [hMiddle, Tables.dossier_modifyRequest_self hKeepsId]
  have hMiddleRow := congrArg Dossier.row hDossier
  change middle.request? requestId = (between.request? requestId).map _ at hMiddleRow
  rw [hRow, Option.map_some] at hMiddleRow
  have hMiddleReceipts : middle.receiptsOf requestId = [] :=
    (congrArg Dossier.receipts hDossier).trans (hReceipts.trans h.receipts)
  have hMiddleAll : middle.receipts = before.receipts := by
    rw [← hAll, hMiddle]
    rfl
  obtain ⟨cose, after, hReceipt⟩ : Succeeds (createReceipt requestId
      (if succeeded then .succeeded else .failed) signer nowUtc [] entropy) middle :=
    (createReceipt_succeeds_iff hMiddleRow h.receiptBytes hMiddleReceipts hId.bytes
      (hMiddleAll ▸ hFresh)).mpr hClock
  refine ⟨cose, after, ?_⟩
  simp only [reconcileRecovery, run_bind_eq_ok_iff, attempt_eq_ok_iff,
    rejectIf_eq_ok_iff, ensureIdentity_eq_ok_iff]
  exact ⟨(), before, ⟨hEvidence, rfl⟩, (), before, ⟨⟨pinned, hIdentity, hNames⟩, rfl⟩,
    (), between, hAppend, (), middle, hUpdate, hReceipt⟩

omit [Cryptography] in
/-- Outside of recovery, the target of a move determines its reason. -/
theorem reason_of_lifecycleMove {source target : RequestState}
    {reason : TransitionReason} (h : lifecycleMove source reason = some target)
    (hSource : source ≠ .recoveryRequired) : reason = transitionReason target := by
  cases source <;> cases reason <;> cases h <;> first | rfl | exact absurd rfl hSource

omit [Cryptography] in
theorem reconciled_of_lifecycleMove {target : RequestState} {reason : TransitionReason}
    (h : lifecycleMove .recoveryRequired reason = some target) :
    ∃ succeeded : Bool, target = (if succeeded then .succeeded else .failed) ∧
      reason = if succeeded then .reconciledSucceeded else .reconciledFailed := by
  cases reason <;> cases h
  · exact ⟨true, rfl, rfl⟩
  · exact ⟨false, rfl, rfl⟩

/-- The history is stored; as long as it is open, the rest is as at the start. -/
structure Realises (base : Database) (requestId : PublicId) (row : RequestRow)
    (history : List LifecycleEvent) (last : LifecycleEvent) (database : Database) :
    Prop where
  latest : history.getLast? = some last
  log : StoredLog requestId last.state (database.eventsOf requestId) history
  row : last.state.isTerminal = false →
    database.request? requestId = some { row with state := last.state }
  identity : last.state.isTerminal = false →
    database.brokerIdentity = base.brokerIdentity
  receipts : last.state.isTerminal = false → database.receipts = base.receipts

/-- The chain of a planned request is its creation. -/
theorem log_of_planning {rows : List EventRow} {log : List LifecycleEvent}
    (hLog : StoredLog requestId .planning rows log) (hShort : rows.length ≤ 1) :
    ∃ created, log = [created] ∧ created.state = .planning ∧
      created.reason = .created ∧ (lifecycleLog requestId).Follows none created := by
  obtain ⟨created, hCreated, hPlanned, hCause⟩ := hLog.first
  have hLength : log.length ≤ 1 := by
    rw [hLog.rows, List.length_map] at hShort
    exact hShort
  have hSingle : log = [created] := by
    cases log with
    | nil => cases hCreated
    | cons found rest =>
        rw [List.length_cons] at hLength
        rw [List.head?_cons, Option.some.injEq] at hCreated
        rw [hCreated, List.length_eq_zero_iff.mp (by omega : rest.length = 0)]
  have hLinked : (lifecycleLog requestId).Linked ([] ++ [created]) :=
    hSingle ▸ hLog.linked
  exact ⟨created, hSingle, hPlanned, hCause, (LogFormat.linked_concat_iff.mp hLinked).2⟩

/-- A planned request has the history of a new one. -/
theorem realises_created {event : LifecycleEvent}
    (hOpen : OpenRequest requestId row (before.dossier requestId))
    (hPlanning : row.state = .planning)
    (hFirst : (lifecycleLog requestId).Follows none event)
    (hState : event.state = .planning) (hReason : event.reason = .created) :
    Realises before requestId row [event] event before := by
  obtain ⟨log, hLog⟩ := hOpen.chain
  have hShort := hOpen.short
  rw [hPlanning] at hLog hShort
  obtain ⟨created, rfl, hPlanned, hCause, hFollows⟩ := log_of_planning hLog hShort
  have hSame : created = event := LifecycleEvent.eq_of_follows hFollows hFirst
    (hPlanned.trans hState.symm) (hCause.trans hReason.symm)
  subst hSame
  have hRow : before.request? requestId = some row := hOpen.found
  refine ⟨rfl, ?_, fun _ => ?_, fun _ => rfl, fun _ => rfl⟩
  · rw [hState]
    exact hLog
  · rw [hRow, hState, ← hPlanning]

end Extend

section Realised

variable {row : RequestRow} {signer : BrokerSigningKey} {nowUtc : Int64}
  {entropy : Entropy} {pinned : IdentityRow} {store : BrokerStore} {base : Database}
  {history : List LifecycleEvent} {last event : LifecycleEvent}

/-- The log of a history that a call extended by the event of a move. -/
theorem storedLog_of_moved {log : List LifecycleEvent} {rows : List EventRow}
    (hMove : ∃ found, found.state = event.state ∧ found.reason = event.reason ∧
      StoredLog requestId event.state rows (log ++ [found]))
    (hFollows : (lifecycleLog requestId).Follows log.getLast? event) :
    StoredLog requestId event.state rows (log ++ [event]) := by
  obtain ⟨found, hState, hReason, hLog⟩ := hMove
  have hSame : found = event := LifecycleEvent.eq_of_follows
    (LogFormat.linked_concat_iff.mp hLog.linked).2 hFollows hState hReason
  exact hSame ▸ hLog

/-- A move of the lifecycle to an open state. -/
theorem Realises.extend_open (h : Realises base requestId row history last store.database)
    (hRequest : OpenRequest requestId { row with state := last.state }
      (store.database.dossier requestId))
    (hMove : Documented last event) (hOpen : event.state.isTerminal = false)
    (hFollows : (lifecycleLog requestId).Follows history.getLast? event) :
    ∃ call, Realises base requestId row (history ++ [event]) event
      (store.step call).database := by
  have hEdge : last.state.permits event.state = true := permits_of_lifecycleMove hMove
  have hReason : event.reason = transitionReason event.state := by
    apply reason_of_lifecycleMove hMove
    intro hRecovery
    obtain ⟨succeeded, hTarget, -⟩ := reconciled_of_lifecycleMove
      (show lifecycleMove .recoveryRequired event.reason = some event.state from
        hRecovery ▸ hMove)
    rw [hTarget] at hOpen
    cases succeeded <;> cases hOpen
  obtain ⟨result, after, hDone⟩ : Succeeds (transitionNonterminal requestId last.state
      event.state) store.database :=
    transitionNonterminal_succeeds hRequest hOpen hEdge
  have hCall : (Call.transitionNonterminal requestId last.state event.state).transaction
      store.deviceIdBytes (Snapshots.at store.database.toTables) store.database =
        .ok (store.deviceIdBytes, after) := by
    rw [Call.transaction, run_bind_eq_ok_iff]
    exact ⟨result, after, hDone, rfl⟩
  obtain ⟨-, found, added, hFound, -, -, hAfter⟩ := transitionNonterminal_eq_ok hDone
  have hRow : store.database.request? requestId = some { row with state := last.state } :=
    hRequest.found
  rw [hRow, Option.some.injEq] at hFound
  subst hFound
  refine ⟨.transitionNonterminal requestId last.state event.state, ?_⟩
  rw [BrokerStore.step_eq_of_transaction hCall]
  refine ⟨List.getLast?_concat, ?_, fun _ => ?_, fun hStill => ?_, fun hStill => ?_⟩
  · have hConcerns : (Call.transitionNonterminal requestId last.state
        event.state).Concerns requestId store.database.toTables := rfl
    refine storedLog_of_moved (storedLog_step hRow h.log hConcerns hCall ?_) hFollows
    intro new cause hDrives
    rw [hReason]
    cases hDrives
    exact ⟨rfl, rfl⟩
  · show (after.dossier requestId).row = _
    rw [hAfter, Tables.dossier_advance hRow, if_pos rfl]
  · rw [← h.identity hRequest.isOpen]
    show after.brokerIdentity = _
    rw [hAfter]
    rfl
  · rw [← h.receipts hRequest.isOpen]
    show after.receipts = _
    rw [hAfter]
    rfl

/-- A move of the lifecycle that closes the request. -/
theorem Realises.extend_closed
    (h : Realises base requestId row history last store.database)
    (hRequest : OpenRequest requestId { row with state := last.state }
      (store.database.dossier requestId))
    (hIdentity : base.brokerIdentity = some pinned) (hNames : pinned.Names signer)
    (hId : requestId.IsRandom) (hFresh : FreshReceiptId entropy base.receipts)
    (hClock : row.createdUtc ≤ nowUtc) (hMove : Documented last event)
    (hClosed : event.state.isTerminal = true)
    (hFollows : (lifecycleLog requestId).Follows history.getLast? event) :
    ∃ call, Realises base requestId row (history ++ [event]) event
      (store.step call).database := by
  have hEdge : last.state.permits event.state = true := permits_of_lifecycleMove hMove
  have hRow : store.database.request? requestId = some { row with state := last.state } :=
    hRequest.found
  have hPinned : store.database.brokerIdentity = some pinned :=
    (h.identity hRequest.isOpen).trans hIdentity
  have hUnused : FreshReceiptId entropy store.database.receipts :=
    (h.receipts hRequest.isOpen).symm ▸ hFresh
  -- It is enough to find a call that has to make this move.
  have hEnough : ∀ (call : Call) (after : Database),
      call.transaction store.deviceIdBytes (Snapshots.at store.database.toTables)
        store.database = .ok (store.deviceIdBytes, after) →
      call.Concerns requestId store.database.toTables →
      (∀ new cause, Drives store.deviceIdBytes (Snapshots.at store.database.toTables)
        store.database.toTables requestId call last.state new cause →
          new = event.state ∧ cause = event.reason) →
      Realises base requestId row (history ++ [event]) event
        (store.step call).database := by
    intro call after hCall hConcerns hDrives
    rw [BrokerStore.step_eq_of_transaction hCall]
    have hLog : StoredLog requestId event.state (after.eventsOf requestId)
        (history ++ [event]) :=
      storedLog_of_moved (storedLog_step hRow h.log hConcerns hCall hDrives) hFollows
    have hNever : ∀ {P : Prop}, event.state.isTerminal = false → P := by
      intro P hOpen
      rw [hClosed] at hOpen
      cases hOpen
    exact ⟨List.getLast?_concat, hLog, hNever, hNever, hNever⟩
  by_cases hRecovery : last.state = .recoveryRequired
  · obtain ⟨succeeded, hTarget, hReason⟩ : ∃ succeeded : Bool,
        event.state = (if succeeded then .succeeded else .failed) ∧
          event.reason =
            if succeeded then .reconciledSucceeded else .reconciledFailed := by
      apply reconciled_of_lifecycleMove
      rw [← hRecovery]
      exact hMove
    obtain ⟨result, after, hDone⟩ : Succeeds (reconcileRecovery requestId succeeded [0]
        signer nowUtc entropy) store.database :=
      reconcileRecovery_succeeds hPinned hNames hRequest hRecovery hId hUnused hClock
        (by decide)
    refine ⟨.reconcileRecovery requestId succeeded [0] signer nowUtc entropy,
      hEnough _ after ?_ rfl ?_⟩
    · rw [Call.transaction, run_bind_eq_ok_iff]
      exact ⟨result, after, hDone, rfl⟩
    · intro new cause hDrives
      rw [hTarget, hReason]
      rw [hRecovery] at hDrives
      cases hDrives
      exact ⟨rfl, rfl⟩
  · have hReason := reason_of_lifecycleMove hMove hRecovery
    obtain ⟨result, after, hDone⟩ : Succeeds (transitionTerminal requestId last.state
        event.state signer nowUtc entropy) store.database :=
      (transitionTerminal_succeeds_iff hPinned hNames hRequest hClosed hEdge hId
        hUnused).mpr hClock
    refine ⟨.transitionTerminal requestId last.state event.state signer nowUtc entropy,
      hEnough _ after ?_ rfl ?_⟩
    · rw [Call.transaction, run_bind_eq_ok_iff]
      exact ⟨result, after, hDone, rfl⟩
    · intro new cause hDrives
      rw [hReason]
      cases hDrives
      exact ⟨rfl, rfl⟩

end Realised

/-- From every reachable store with a planned request of a generated identifier, the
request can be taken through every history of the lifecycle: whatever the record could
do, the store can do, provided that it holds the pinned key, that the wall clock has not
gone back behind the creation of the request, and that the next receipt has a new
identifier. -/
theorem history_realised (calls : List Call) {requestId : PublicId} {row : RequestRow}
    {signer : BrokerSigningKey} {pinned : IdentityRow} {nowUtc : Int64}
    {entropy : Entropy} (hRow : (run BrokerStore.step BrokerStore.empty
      calls).database.request? requestId = some row)
    (hPlanning : row.state = .planning)
    (hIdentity : (run BrokerStore.step BrokerStore.empty
      calls).database.brokerIdentity = some pinned)
    (hNames : pinned.Names signer) (hId : requestId.IsRandom)
    (hClock : row.createdUtc ≤ nowUtc)
    (hFresh : FreshReceiptId entropy
      (run BrokerStore.step BrokerStore.empty calls).database.receipts)
    (history : List LifecycleEvent) (hHistory : History requestId history) :
    ∃ later, events requestId (run BrokerStore.step BrokerStore.empty
      (calls ++ later)).database.toTables = .ok history := by
  -- The induction keeps what an open request needs to go on.
  have hReached : ∃ later last, Realises
      (run BrokerStore.step BrokerStore.empty calls).database requestId row history last
      (run BrokerStore.step BrokerStore.empty (calls ++ later)).database := by
    induction history using List.reverseRecOn with
    | nil =>
        obtain ⟨event, hHead, -⟩ := hHistory.first
        cases hHead
    | append_singleton earlier event ih =>
        have hFollows := (LogFormat.linked_concat_iff.mp hHistory.linked).2
        rcases hHistory.cases_concat with
          ⟨rfl, hState, hReason⟩ | ⟨last, hLast, hEarlier, hMove⟩
        · refine ⟨[], event, ?_⟩
          rw [List.append_nil]
          exact realises_created (OpenRequest.of_run calls hRow (by rw [hPlanning]; rfl))
            hPlanning hFollows hState hReason
        · obtain ⟨later, found, hBefore⟩ := ih hEarlier
          have hFound : found = last :=
            Option.some.inj (hBefore.latest.symm.trans hLast)
          subst hFound
          have hOpen : found.state.isTerminal = false := by
            cases hTerminal : found.state.isTerminal with
            | false => rfl
            | true =>
                have hNone : found.state.permits event.state = false :=
                  RequestState.not_permits_of_isTerminal hTerminal
                rw [permits_of_lifecycleMove hMove] at hNone
                cases hNone
          have hRequest := OpenRequest.of_run (calls ++ later) (hBefore.row hOpen) hOpen
          obtain ⟨call, hAfter⟩ : ∃ call, Realises
              (run BrokerStore.step BrokerStore.empty calls).database requestId row
              (earlier ++ [event]) event
              ((run BrokerStore.step BrokerStore.empty (calls ++ later)).step
                call).database := by
            cases hClosed : event.state.isTerminal with
            | false => exact hBefore.extend_open hRequest hMove hClosed hFollows
            | true =>
                exact hBefore.extend_closed hRequest hIdentity hNames hId hFresh hClock
                  hMove hClosed hFollows
          refine ⟨later ++ [call], event, ?_⟩
          rw [← List.append_assoc, run_concat]
          exact hAfter
  obtain ⟨later, last, hRealised⟩ := hReached
  exact ⟨later, hRealised.log.events_eq⟩

end Realise

/-- The sample request can be taken through every history. -/
theorem history_realised_sample :
    let _ : Cryptography := keyedHashCryptography
    ∀ history, History sampleRequest.requestId history →
      ∃ later, events sampleRequest.requestId (run BrokerStore.step BrokerStore.empty
        (plannedBootRun.dropLast ++ later)).database.toTables = .ok history := by
  intro _ history hHistory
  have hColumns : (run BrokerStore.step BrokerStore.empty
        plannedBootRun.dropLast).database.brokerIdentity.map
          (fun pinned => decide (pinned.Names sampleSigner)) = some true ∧
      ((run BrokerStore.step BrokerStore.empty
        plannedBootRun.dropLast).database.request? sampleRequest.requestId).map
          (fun row => (row.state, row.createdUtc)) = some (.planning, 0) ∧
      (run BrokerStore.step BrokerStore.empty
        plannedBootRun.dropLast).database.receipts = [] := by
    decide +kernel
  obtain ⟨hIdentity, hFound, hReceipts⟩ := hColumns
  obtain ⟨pinned, hPinned, hNames⟩ := Option.map_eq_some_iff.mp hIdentity
  obtain ⟨row, hRow, hPair⟩ := Option.map_eq_some_iff.mp hFound
  obtain ⟨hPlanning, hCreated⟩ := Prod.mk.inj hPair
  have hClock : row.createdUtc ≤ 5 := by
    rw [hCreated]
    decide
  have hFresh : FreshReceiptId (some (ByteArr.fill 16 3)) (run BrokerStore.step
      BrokerStore.empty plannedBootRun.dropLast).database.receipts := by
    rw [hReceipts]
    exact ⟨ByteArr.fill 16 3, rfl, by simp⟩
  exact history_realised plannedBootRun.dropLast hRow hPlanning hPinned
    (of_decide_eq_true hNames) ⟨ByteArr.fill 16 0, by decide +kernel⟩ hClock hFresh
    history hHistory

end Broker
end RootPermit
