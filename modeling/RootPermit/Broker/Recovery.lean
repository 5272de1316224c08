import RootPermit.Broker.Edges

/-!
# The way out of recovery

`reconcile_recovery` demands evidence, stores it and puts its digest into the
receipt.  It is meant to be the only way out of the recovery state.  The generic
terminal transition is another one, because the lifecycle graph has the edges from
recovery to success and to failure (`recovered_without_evidence`).  In a run in
which it is not used there, every request that left recovery was reconciled
(`recovery_reconciled`).
-/

namespace RootPermit
namespace Broker

open Foundation Protocol

/-- The call reconciles a request that needs recovery, with this evidence. -/
def Reconciles [Cryptography] (requestId : PublicId) (evidence : Bytes)
    (store : BrokerStore) (call : Call) : Prop :=
  ∃ succeeded signer nowUtc entropy next,
    call = .reconcileRecovery requestId succeeded evidence signer nowUtc entropy ∧
    requestState requestId store.database.toTables = some .recoveryRequired ∧
    store.call call = .ok next

/-- The stored receipt of a request carries the digest of the evidence. -/
def ReceiptNamesEvidence [Cryptography] (requestId : PublicId) (evidence : Bytes)
    (tables : Tables) : Prop :=
  ∃ bytes cose receipt entries, Broker.receipt requestId tables = some bytes ∧
    CoseSign1.decode bytes = .ok cose ∧ Receipt.decode cose.payload = .ok receipt ∧
    receipt.executionEvidence = .map entries ∧
    (CborValue.unsigned 2, CborValue.bytes (sha256 evidence).val) ∈ entries

/-- After the calls, every request whose chain goes on after recovery was
reconciled, and its row, its chain and its receipt show it. -/
def RecoveryReconciled [Cryptography] (calls : List Call) : Prop :=
  let store := run BrokerStore.step BrokerStore.empty calls
  ∀ requestId row chain, store.database.request? requestId = some row →
    events requestId store.database.toTables = .ok chain →
    ∀ front first second back, chain = front ++ first :: second :: back →
      first.state = .recoveryRequired →
      (second.reason = .reconciledSucceeded ∨ second.reason = .reconciledFailed) ∧
      ∃ evidence, row.recoveryEvidence = some evidence ∧ evidence ≠ [] ∧
        evidence.length ≤ 65536 ∧
        Occurs BrokerStore.step BrokerStore.empty calls
          (Reconciles requestId evidence) ∧
        ReceiptNamesEvidence requestId evidence store.database.toTables

/-- The call uses the generic terminal transition on a request that needs
recovery. -/
def BypassesRecovery (store : BrokerStore) (call : Call) : Prop :=
  ∃ requestId next signer nowUtc entropy,
    requestState requestId store.database.toTables = some .recoveryRequired ∧
    (next = .succeeded ∨ next = .failed) ∧
    call = .transitionTerminal requestId .recoveryRequired next signer nowUtc entropy

/-! ### Moves out of recovery -/

theorem RequestState.permits_of_recoveryRequired {target : RequestState}
    (h : RequestState.recoveryRequired.permits target = true) :
    target = .succeeded ∨ target = .failed := by
  cases target <;> first | exact Or.inl rfl | exact Or.inr rfl | cases h

section Moves

variable [Cryptography] {requestId : PublicId}

/-- A move out of recovery is a reconciliation or a generic transition. -/
theorem Drives.of_recoveryRequired {deviceIdBytes : ByteArr 16}
    {snapshots : Snapshots} {before : Tables} {call : Call} {target : RequestState}
    {reason : TransitionReason}
    (h : Drives deviceIdBytes snapshots before requestId call .recoveryRequired target
      reason) :
    (∃ succeeded evidence signer nowUtc entropy,
      call = .reconcileRecovery requestId succeeded evidence signer nowUtc entropy ∧
      (reason = .reconciledSucceeded ∨ reason = .reconciledFailed)) ∨
    (∃ signer nowUtc entropy, (target = .succeeded ∨ target = .failed) ∧
      call = .transitionTerminal requestId .recoveryRequired target signer nowUtc
        entropy) := by
  generalize hSource : RequestState.recoveryRequired = source at h
  cases h with
  | nonterminal source target hOpen hEdge =>
      subst hSource
      rcases RequestState.permits_of_recoveryRequired hEdge with rfl | rfl <;>
        cases hOpen
  | prepared => cases hSource
  | terminal source target signer nowUtc entropy hClosed hEdge =>
      subst hSource
      exact Or.inr ⟨signer, nowUtc, entropy,
        RequestState.permits_of_recoveryRequired hEdge, rfl⟩
  | reconciled succeeded evidence signer nowUtc entropy =>
      refine Or.inl ⟨succeeded, evidence, signer, nowUtc, entropy, rfl, ?_⟩
      cases succeeded
      · exact Or.inr rfl
      · exact Or.inl rfl
  | booted _ _ _ _ source hFound =>
      subst hSource
      exact absurd hFound (by decide)
  | lapsed => cases hSource
  | decided => cases hSource

/-- The reason of a move out of recovery, in a run without bypass. -/
def ReconciledMove (_ : PublicId) (source _ : RequestState)
    (reason : TransitionReason) : Prop :=
  source = .recoveryRequired →
    reason = .reconciledSucceeded ∨ reason = .reconciledFailed

theorem MovesAre.reconciled_step (store : BrokerStore) (call : Call)
    (h : store.Sound ∧ MovesAre ReconciledMove store)
    (hDirect : ¬ BypassesRecovery store call) :
    (store.step call).Sound ∧ MovesAre ReconciledMove (store.step call) := by
  refine ⟨BrokerStore.Sound.step store call h.1, h.2.step h.1 ?_⟩
  intro requestId row target reason hRow hDrives hSource
  rw [hSource] at hDrives
  rcases hDrives.of_recoveryRequired with
    ⟨_, _, _, _, _, -, hReason⟩ | ⟨signer, nowUtc, entropy, hTarget, hCall⟩
  · exact hReason
  · exact absurd ⟨requestId, target, signer, nowUtc, entropy,
      requestState_eq_some_iff.mpr ⟨row, hRow, hSource⟩, hTarget, hCall⟩ hDirect

/-- What a reconciliation stores. -/
theorem reconcileRecovery_row {succeeded : Bool} {evidence result : Bytes}
    {signer : BrokerSigningKey} {nowUtc : Int64} {entropy : Entropy}
    {before after : Database}
    (h : reconcileRecovery requestId succeeded evidence signer nowUtc entropy before =
      .ok (result, after)) :
    (evidence ≠ [] ∧ evidence.length ≤ 65536) ∧
      ∃ new, after.request? requestId = some new ∧ new.state.isTerminal = true ∧
        new.recoveryEvidence = some evidence := by
  obtain ⟨hEvidence, -, between, middle, hAppend, hUpdate, hReceipt⟩ :=
    reconcileRecovery_runs h
  have hMiddle := updateRequest_eq_ok_iff.mp hUpdate
  refine ⟨hEvidence, ?_⟩
  obtain ⟨old, event, hOld, -, -, hBetween⟩ := appendTransition_eq_ok hAppend
  obtain ⟨closing, made, hClosing, -, hMade, -, -, hAfter⟩ :=
    createReceipt_eq_ok hReceipt
  -- The transition, the evidence and the receipt each update the row.
  have hMiddleRow : middle.request? requestId =
      some { old with
        state := if succeeded then .succeeded else .failed
        recoveryEvidence := some evidence } := by
    show (middle.dossier requestId).row = _
    rw [hMiddle, Tables.dossier_modifyRequest_self (by simp), hBetween,
      Tables.dossier_advance hOld, if_pos rfl]
    rfl
  rw [hMiddleRow, Option.some.injEq] at hClosing
  have hClosed : after.request? requestId =
      some { closing with receiptBytes := some made.coseBytes } := by
    show (after.dossier requestId).row = _
    rw [hAfter, Tables.dossier_close hMade.requestId (hClosing ▸ hMiddleRow),
      if_pos rfl]
  refine ⟨_, hClosed, ?_, ?_⟩
  · rw [← hClosing]
    cases succeeded <;> rfl
  · rw [← hClosing]

/-! ### The reconciliation behind an exit -/

/-- The chain of the request goes on after recovery. -/
def LeftRecovery (requestId : PublicId) (store : BrokerStore) : Prop :=
  ∃ row log front first second back,
    store.database.request? requestId = some row ∧
    StoredLog requestId row.state (store.database.eventsOf requestId) log ∧
    log = front ++ first :: second :: back ∧ first.state = .recoveryRequired

/-- The call after which the chain goes on reconciled the request. -/
theorem LeftRecovery.cause (store : BrokerStore) (call : Call)
    (h : store.Sound ∧ ¬ BypassesRecovery store call)
    (hBefore : ¬ LeftRecovery requestId store)
    (hAfter : LeftRecovery requestId (store.step call)) :
    ∃ evidence, Reconciles requestId evidence store call := by
  obtain ⟨row, log, front, first, second, back, hRow, hLog, hShape, hState⟩ := hAfter
  cases logStep h.1 hRow hLog with
  | kept hRow hLog =>
      exact absurd ⟨row, log, front, first, second, back, hRow, hLog, hShape, hState⟩
        hBefore
  | created event =>
      -- One event is too short a log.
      have hLength := congrArg List.length hShape
      rw [List.length_append] at hLength
      simp only [List.length_cons, List.length_nil] at hLength
      omega
  | @moved old earlier event hOld hEarlier hDrives hDone =>
      rcases List.eq_nil_or_concat back with rfl | ⟨back, last, rfl⟩
      · -- The last event is the one that leaves recovery.
        have hEnd : earlier ++ [event] = (front ++ [first]) ++ [second] := by
          rw [hShape, List.append_assoc, List.singleton_append]
        obtain ⟨hFront, -⟩ := List.append_inj' hEnd rfl
        obtain ⟨found, hFound, hOldState⟩ := hEarlier.last
        rw [hFront, List.getLast?_concat, Option.some.injEq] at hFound
        rw [← hFound, hState] at hOldState
        rw [← hOldState] at hDrives
        have hRecovery : requestState requestId store.database.toTables =
            some .recoveryRequired :=
          requestState_eq_some_iff.mpr ⟨old, hOld, hOldState.symm⟩
        rcases hDrives.of_recoveryRequired with
          ⟨succeeded, evidence, signer, nowUtc, entropy, hCall, -⟩ |
            ⟨signer, nowUtc, entropy, hTarget, hCall⟩
        · exact ⟨evidence, succeeded, signer, nowUtc, entropy, store.step call, hCall,
            hRecovery, hDone⟩
        · exact absurd ⟨requestId, event.state, signer, nowUtc, entropy, hRecovery,
            hTarget, hCall⟩ h.2
      · -- The chain went on after recovery before this call.
        have hInside : earlier ++ [event] =
            (front ++ first :: second :: back) ++ [last] := by
          rw [hShape]
          simp
        obtain ⟨hFront, -⟩ := List.append_inj' hInside rfl
        exact absurd ⟨old, earlier, front, first, second, back, hOld, hEarlier, hFront,
          hState⟩ hBefore

/-- A reconciled request keeps its evidence, and its receipt names it. -/
theorem Reconciles.row {evidence : Bytes} {store : BrokerStore} {call : Call}
    (h : Reconciles requestId evidence store call) :
    (evidence ≠ [] ∧ evidence.length ≤ 65536) ∧
      ∃ new, (store.step call).database.request? requestId = some new ∧
        new.state.isTerminal = true ∧ new.recoveryEvidence = some evidence := by
  obtain ⟨succeeded, signer, nowUtc, entropy, next, rfl, -, hCall⟩ := h
  have hStep : store.step (.reconcileRecovery requestId succeeded evidence signer
      nowUtc entropy) = next := by
    unfold BrokerStore.step
    rw [hCall]
  unfold BrokerStore.call at hCall
  rw [map_eq_ok_iff] at hCall
  obtain ⟨⟨result, after⟩, hDone, rfl⟩ := hCall
  obtain ⟨_, hReconcile⟩ := ran_of_transaction hDone
  rw [hStep]
  exact reconcileRecovery_row hReconcile

/-- A receipt that was made for a row with evidence carries the digest of it. -/
theorem Receipted.namesEvidence {identity : Option IdentityRow} {row : RequestRow}
    {made : ReceiptRow} {evidence : Bytes} {tables : Tables}
    (h : Receipted identity requestId row made)
    (hEvidence : row.recoveryEvidence = some evidence)
    (hReceipts : tables.receiptsOf requestId = [made]) :
    ReceiptNamesEvidence requestId evidence tables := by
  obtain ⟨pinned, signer, nowUtc, authorization, metadata, -, -, hMade⟩ := h
  obtain ⟨receiptId, receipt, payload, cose, hReceipt, -, -, hCose, hDecode⟩ :=
    hMade.decodes
  have hExecution : receipt.executionEvidence =
      executionEvidence row.state (some evidence) := by
    simp only [receiptOf, bind_eq_ok_iff, pure_eq_ok, Except.ok.injEq] at hReceipt
    obtain ⟨_, -, _, -, _, -, _, -, _, -, rfl⟩ := hReceipt
    show executionEvidence row.state row.recoveryEvidence = _
    rw [hEvidence]
  have hRead : Broker.receipt requestId tables = some made.coseBytes := by
    unfold Broker.receipt
    rw [hReceipts]
    rfl
  obtain ⟨entries, hEntries, hMem⟩ : ∃ entries,
      normalize receipt.executionEvidence = .map entries ∧
        (CborValue.unsigned 2, CborValue.bytes (sha256 evidence).val) ∈ entries := by
    rw [hExecution, executionEvidence]
    refine ⟨_, normalize_map _, ?_⟩
    -- Sorting the entries and normalizing them keeps this one.
    refine List.mem_map.mpr ⟨(.unsigned 2, .bytes (sha256 evidence).val), ?_, rfl⟩
    rw [mem_sortByKey]
    exact List.mem_cons_of_mem _ List.mem_cons_self
  exact ⟨made.coseBytes, cose, receipt.normal, entries, hRead, hCose, hDecode, hEntries,
    hMem⟩

/-- In every run that does not close a request in recovery by the generic
transition, every request that left recovery was reconciled. -/
theorem recovery_reconciled {calls : List Call}
    (hCalls : Throughout BrokerStore.step BrokerStore.empty calls
      fun store call => ¬ BypassesRecovery store call) :
    ∀ earlier, earlier <+: calls → RecoveryReconciled earlier := by
  intro earlier hPrefix requestId row chain hRow hChain front first second back
    hShape hState
  have hDirect := hCalls.of_prefix hPrefix
  obtain ⟨hSound, hMoves⟩ := run_invariant_of_throughout
    (I := fun store : BrokerStore => store.Sound ∧ MovesAre ReconciledMove store)
    ⟨BrokerStore.Sound.empty, MovesAre.empty⟩ MovesAre.reconciled_step hDirect
  refine ⟨List.isChain_iff_forall_rel_of_append_cons_cons.mp
    (hMoves.events hSound hChain) hShape hState, ?_⟩
  have hRequest := hSound.requests requestId row hRow
  have hLeft : LeftRecovery requestId
      (run BrokerStore.step BrokerStore.empty earlier) := by
    obtain ⟨log, hLog⟩ := hRequest.chain
    rw [hLog.events_eq, Except.ok.injEq] at hChain
    exact ⟨row, log, front, first, second, back, hRow, hLog, hChain.trans hShape,
      hState⟩
  have hUnleft : ¬ LeftRecovery requestId BrokerStore.empty := by
    rintro ⟨_, _, _, _, _, _, hNone, -⟩
    cases hNone
  have hPermitted : Throughout BrokerStore.step BrokerStore.empty earlier
      fun store call => store.Sound ∧ ¬ BypassesRecovery store call :=
    fun front call back hSplit =>
      ⟨BrokerStore.sound_of_run front, hDirect front call back hSplit⟩
  obtain ⟨before, call, after, rfl, evidence, hReconciles⟩ := occurs_of_reached
    (Q := LeftRecovery requestId) hUnleft LeftRecovery.cause hPermitted hLeft
  obtain ⟨⟨hSome, hBound⟩, new, hNew, hClosed, hEvidence⟩ := hReconciles.row
  -- A closed request does not change any more.
  have hSame := (Kept.run requestId _ after).closed new hNew hClosed
  rw [run_append, run_cons] at hRow hRequest ⊢
  have hFinal : row = new := Option.some.inj
    (hRow.symm.trans ((congrArg Dossier.row hSame).trans hNew))
  subst hFinal
  obtain ⟨made, hMade, hReceipts, -⟩ := hRequest.closed hClosed
  exact ⟨evidence, hEvidence, hSome, hBound, ⟨before, call, after, rfl, hReconciles⟩,
    hMade.namesEvidence hEvidence hReceipts⟩

end Moves

/-- The sample request is taken to execution by generic transitions, and its
execution ends in recovery. -/
def recoveryRun : List Call :=
  [.initializeIdentity sampleSigner (some (ByteArr.fill 16 9)),
    .submit sampleRequest allowAll,
    .transitionNonterminal sampleRequest.requestId .planning .pending,
    .transitionNonterminal sampleRequest.requestId .pending .approved,
    .transitionNonterminal sampleRequest.requestId .approved .executing,
    .transitionNonterminal sampleRequest.requestId .executing .recoveryRequired]

def reconciledRun : List Call :=
  recoveryRun ++ [.reconcileRecovery sampleRequest.requestId true (utf8 "evidence")
    sampleSigner 5 (some (ByteArr.fill 16 3))]

def bypassedRecoveryRun : List Call :=
  recoveryRun ++ [.transitionTerminal sampleRequest.requestId .recoveryRequired
    .succeeded sampleSigner 5 (some (ByteArr.fill 16 3))]

/-- The states of a chain tell where it leaves recovery. -/
theorem exists_exit_of_states {chain : List LifecycleEvent}
    {states : List RequestState} {last : RequestState}
    (h : chain.map LifecycleEvent.state = states ++ [.recoveryRequired, last]) :
    ∃ front first second, chain = front ++ first :: second :: [] ∧
      first.state = .recoveryRequired := by
  obtain ⟨front, exit, rfl, -, hExit⟩ := List.map_eq_append_iff.mp h
  obtain ⟨first, rest, rfl, hFirst, hRest⟩ := List.map_eq_cons_iff.mp hExit
  obtain ⟨second, rfl, -⟩ := List.map_eq_singleton_iff.mp hRest
  exact ⟨front, first, second, rfl, hFirst⟩

/-- The sample request is reconciled, and its receipt names the evidence. -/
theorem recovery_reconciled_sample :
    ∃ row evidence, (run (@BrokerStore.step keyedHashCryptography)
        BrokerStore.empty reconciledRun).database.request? sampleRequest.requestId =
          some row ∧
      row.recoveryEvidence = some evidence ∧
      @ReceiptNamesEvidence keyedHashCryptography sampleRequest.requestId evidence
        (run (@BrokerStore.step keyedHashCryptography) BrokerStore.empty
          reconciledRun).database.toTables := by
  have hCalls : Throughout (@BrokerStore.step keyedHashCryptography)
      BrokerStore.empty reconciledRun
      fun store call => ¬ BypassesRecovery store call := by
    apply Throughout.of_mem
    intro call hCall store hBypass
    obtain ⟨_, _, _, _, _, -, -, rfl⟩ := hBypass
    simp [reconciledRun, recoveryRun] at hCall
  have hReconciled := @recovery_reconciled keyedHashCryptography _ hCalls _
    List.prefix_rfl
  have hStates : (events sampleRequest.requestId
      (run (@BrokerStore.step keyedHashCryptography) BrokerStore.empty
        reconciledRun).database.toTables).map (List.map LifecycleEvent.state) =
      .ok ([.planning, .pending, .approved, .executing] ++
        [.recoveryRequired, .succeeded]) := by
    decide +kernel
  have hFound : ((run (@BrokerStore.step keyedHashCryptography) BrokerStore.empty
      reconciledRun).database.request? sampleRequest.requestId).isSome = true := by
    decide +kernel
  unfold RecoveryReconciled at hReconciled
  generalize run (@BrokerStore.step keyedHashCryptography) BrokerStore.empty
    reconciledRun = store at hReconciled hStates hFound ⊢
  obtain ⟨row, hRow⟩ := Option.isSome_iff_exists.mp hFound
  obtain ⟨chain, hChain, hMap⟩ := map_eq_ok_iff.mp hStates
  obtain ⟨front, first, second, hShape, hState⟩ := exists_exit_of_states hMap
  obtain ⟨-, evidence, hEvidence, -, -, -, hReceipt⟩ :=
    hReconciled sampleRequest.requestId row chain hRow hChain front first second []
      hShape hState
  exact ⟨row, evidence, hRow, hEvidence, hReceipt⟩

/-- A request that leaves recovery without any evidence. -/
theorem recovered_without_evidence :
    ¬ @RecoveryReconciled keyedHashCryptography bypassedRecoveryRun := by
  intro h
  have hStates : (events sampleRequest.requestId
      (run (@BrokerStore.step keyedHashCryptography) BrokerStore.empty
        bypassedRecoveryRun).database.toTables).map
      (List.map LifecycleEvent.state) =
      .ok ([.planning, .pending, .approved, .executing] ++
        [.recoveryRequired, .succeeded]) := by
    decide +kernel
  have hColumn : ((run (@BrokerStore.step keyedHashCryptography) BrokerStore.empty
      bypassedRecoveryRun).database.request? sampleRequest.requestId).map
      RequestRow.recoveryEvidence = some none := by
    decide +kernel
  unfold RecoveryReconciled at h
  generalize run (@BrokerStore.step keyedHashCryptography) BrokerStore.empty
    bypassedRecoveryRun = store at h hStates hColumn
  obtain ⟨row, hRow, hNone⟩ := Option.map_eq_some_iff.mp hColumn
  obtain ⟨chain, hChain, hMap⟩ := map_eq_ok_iff.mp hStates
  obtain ⟨front, first, second, hShape, hState⟩ := exists_exit_of_states hMap
  obtain ⟨-, evidence, hEvidence, -⟩ :=
    h sampleRequest.requestId row chain hRow hChain front first second [] hShape
      hState
  rw [hNone] at hEvidence
  cases hEvidence

end Broker
end RootPermit
