import RootPermit.Broker.Dossier

/-!
# What a call can do to a request

A successful call leaves a request alone, creates it, or moves it along one edge
of its lifecycle.  `Drives` lists, path by path, which call can move a request from
which state to which, and under which condition; `Moved` says what a move does to
the dossier of the request, whatever its path.  Each operation has a lemma that
takes its successes apart in these terms.
-/

namespace RootPermit
namespace Broker

open Foundation Protocol WebAuthn

/-- The columns that are fixed when a request is submitted. -/
structure SameSubmission (old new : RequestRow) : Prop where
  requestId : new.requestId = old.requestId
  deviceId : new.deviceId = old.deviceId
  requesterUid : new.requesterUid = old.requesterUid
  operationKey : new.operationKey = old.operationKey
  inputDigest : new.inputDigest = old.inputDigest
  packageName : new.packageName = old.packageName
  generation : new.generation = old.generation
  bootEpoch : new.bootEpoch = old.bootEpoch

theorem SameSubmission.refl (row : RequestRow) : SameSubmission row row :=
  ⟨rfl, rfl, rfl, rfl, rfl, rfl, rfl, rfl⟩

theorem SameSubmission.trans {first second third : RequestRow}
    (h : SameSubmission first second) (h' : SameSubmission second third) :
    SameSubmission first third :=
  ⟨h'.requestId.trans h.requestId, h'.deviceId.trans h.deviceId,
    h'.requesterUid.trans h.requesterUid, h'.operationKey.trans h.operationKey,
    h'.inputDigest.trans h.inputDigest, h'.packageName.trans h.packageName,
    h'.generation.trans h.generation, h'.bootEpoch.trans h.bootEpoch⟩

/-- Neither the state nor the bytes of the receipt are part of the submission. -/
theorem SameSubmission.setState (row : RequestRow) (next : RequestState) :
    SameSubmission row { row with state := next } :=
  ⟨rfl, rfl, rfl, rfl, rfl, rfl, rfl, rfl⟩

theorem SameSubmission.setReceiptBytes (row : RequestRow) (bytes : Bytes) :
    SameSubmission row { row with receiptBytes := some bytes } :=
  ⟨rfl, rfl, rfl, rfl, rfl, rfl, rfl, rfl⟩

/-- The row is the receipt of a request, made with the pinned key. -/
def Receipted [Cryptography] (identity : Option IdentityRow) (requestId : PublicId)
    (row : RequestRow) (made : ReceiptRow) : Prop :=
  ∃ pinned signer nowUtc evidence metadata, identity = some pinned ∧
    pinned.Names signer ∧
    ReceiptMade signer requestId row.state nowUtc evidence row metadata made

/-- A transaction moves a request: its row changes from `old` to `new`, one event
is added to its chain, and a receipt is made exactly when the new state is
terminal. -/
structure Moved [Cryptography] (identity : Option IdentityRow)
    (requestId : PublicId) (reason : TransitionReason) (old new : RequestRow)
    (before after : Dossier) : Prop where
  rowBefore : before.row = some old
  rowAfter : after.row = some new
  submission : SameSubmission old new
  event : ∃ event, NextEvent requestId new.state reason before.events event ∧
    after.events = before.events ++ [event.toRow requestId]
  remainsOpen : new.state.isTerminal = false →
    new.receiptBytes = old.receiptBytes ∧ after.receipts = before.receipts
  closes : new.state.isTerminal = true →
    ∃ made, Receipted identity requestId new made ∧ before.receipts = [] ∧
      after.receipts = [made] ∧ old.receiptBytes = none ∧
      new.receiptBytes = some made.coseBytes

/-- The call has to move the request when it succeeds: it names it, or it starts a
new boot and finds it among the work of other boots. -/
def Call.Concerns (requestId : PublicId) (tables : Tables) : Call → Prop
  | .transitionNonterminal named _ _ => named = requestId
  | .prepareForDecision named _ _ _ => named = requestId
  | .applyWebauthnSubmission decision _ _ => decision.requestId = requestId
  | .transitionTerminal named _ _ _ _ _ => named = requestId
  | .reconcileRecovery named _ _ _ _ _ => named = requestId
  | .startBoot bootEpoch _ _ _ =>
      ∃ epoch : Int64, epoch.toInt = bootEpoch.toNat ∧
        tables.brokerMetadata.bootEpoch ≠ epoch ∧
        requestId.asStr ∈ workToExpire epoch tables
  | _ => False

/-- The paths by which a call moves a request from one state to another. -/
inductive Drives [Cryptography] (deviceIdBytes : ByteArr 16) (snapshots : Snapshots)
    (before : Tables) (requestId : PublicId) :
    Call → RequestState → RequestState → TransitionReason → Prop
  | nonterminal (source target : RequestState) (hOpen : target.isTerminal = false)
      (hEdge : source.permits target = true) :
      Drives deviceIdBytes snapshots before requestId
        (.transitionNonterminal requestId source target) source target
        (transitionReason target)
  | prepared (plan : FrozenPlan) (context : PendingRequestContext)
      (signer : BrokerSigningKey) :
      Drives deviceIdBytes snapshots before requestId
        (.prepareForDecision requestId plan context signer) .planning .pending
        .plannerPending
  | terminal (source target : RequestState) (signer : BrokerSigningKey)
      (nowUtc : Int64) (entropy : Entropy) (hClosed : target.isTerminal = true)
      (hEdge : source.permits target = true) :
      Drives deviceIdBytes snapshots before requestId
        (.transitionTerminal requestId source target signer nowUtc entropy) source
        target (transitionReason target)
  | reconciled (succeeded : Bool) (evidence : Bytes) (signer : BrokerSigningKey)
      (nowUtc : Int64) (entropy : Entropy) :
      Drives deviceIdBytes snapshots before requestId
        (.reconcileRecovery requestId succeeded evidence signer nowUtc entropy)
        .recoveryRequired (if succeeded then .succeeded else .failed)
        (if succeeded then .reconciledSucceeded else .reconciledFailed)
  | booted (bootEpoch : UInt64) (signer : BrokerSigningKey) (nowUtc : Int64)
      (entropy : Nat → Entropy) (source : RequestState)
      (hSource : source ∈ [RequestState.planning, .pending, .approved])
      (hWork : (Call.startBoot bootEpoch signer nowUtc entropy).Concerns requestId
        before) :
      Drives deviceIdBytes snapshots before requestId
        (.startBoot bootEpoch signer nowUtc entropy) source .expired .expired
  | lapsed (decision : DecisionAttempt) (signer : BrokerSigningKey)
      (entropy : Entropy) (hRequest : decision.requestId = requestId)
      (target : RequestState) (hTarget : target = .expired ∨ target = .stale) :
      Drives deviceIdBytes snapshots before requestId
        (.applyWebauthnSubmission decision signer entropy) .pending target
        (transitionReason target)
  | decided (decision : DecisionAttempt) (signer : BrokerSigningKey)
      (entropy : Entropy) (hRequest : decision.requestId = requestId)
      (context : ApprovalContext) (verified : VerifiedAssertion)
      (hRead : decision.read deviceIdBytes snapshots =
        .ok (.decided context verified))
      (hGeneration : credentialGeneration before = .ok context.generation) :
      Drives deviceIdBytes snapshots before requestId
        (.applyWebauthnSubmission decision signer entropy) .pending
        (decidedState verified.decision)
        (transitionReason (decidedState verified.decision))

/-- What a successful call does to one request. -/
inductive Effect [Cryptography] (deviceIdBytes : ByteArr 16) (snapshots : Snapshots)
    (call : Call) (requestId : PublicId) (before after : Tables) : Prop
  | kept (hKept : after.dossier requestId = before.dossier requestId)
      (hSpared : ¬ call.Concerns requestId before)
  | created (request : SubmitPackageInstall) (policy : PackageInstallPolicy)
      (generation : Int64) (hCall : call = .submit request policy)
      (hRequest : request.requestId = requestId)
      (hAbsent : before.request? requestId = none)
      (hCreated : after.dossier requestId =
        { row := some (newRequest (Base64Url.encodeText deviceIdBytes.val) request
            generation)
          events := [createdEvent requestId]
          receipts := [] })
  | moved (old new : RequestRow) (reason : TransitionReason)
      (hMoved : Moved before.brokerIdentity requestId reason old new
        (before.dossier requestId) (after.dossier requestId))
      (hDrives : Drives deviceIdBytes snapshots before requestId call old.state
        new.state reason)

/-! ### Moves -/

/-- A transition to a state that is not terminal. -/
theorem moved_of_advance [Cryptography] {identity : Option IdentityRow}
    {requestId : PublicId} {reason : TransitionReason} {tables after : Tables}
    {next : RequestState} {event : LifecycleEvent} {old new : RequestRow}
    (hRow : tables.request? requestId = some old)
    (hEvent : NextEvent requestId next reason (tables.eventsOf requestId) event)
    (hOpen : next.isTerminal = false) (hState : new.state = next)
    (hSubmission : SameSubmission old new)
    (hBytes : new.receiptBytes = old.receiptBytes)
    (hAfter : after.dossier requestId =
      { row := some new
        events := tables.eventsOf requestId ++ [event.toRow requestId]
        receipts := tables.receiptsOf requestId }) :
    Moved identity requestId reason old new (tables.dossier requestId)
      (after.dossier requestId) := by
  rw [hAfter]
  refine ⟨hRow, rfl, hSubmission, ⟨event, ?_, rfl⟩, ?_, ?_⟩
  · rw [hState]
    exact hEvent
  · intro _
    exact ⟨hBytes, rfl⟩
  · intro hClosed
    rw [hState, hOpen] at hClosed
    cases hClosed

/-- A change of a row that leaves alone what a lifecycle move decides. -/
structure KeepsLifecycle (change : RequestRow → RequestRow) : Prop where
  submission : ∀ row, SameSubmission row (change row)
  state : ∀ row, (change row).state = row.state
  receiptBytes : ∀ row, (change row).receiptBytes = row.receiptBytes

theorem KeepsLifecycle.id : KeepsLifecycle fun row => row :=
  ⟨SameSubmission.refl, fun _ => rfl, fun _ => rfl⟩

theorem bindRequest_keepsLifecycle (plan : FrozenPlan)
    (context : PendingRequestContext) (requestDigest : Digest)
    (requestCose frozenPlan : Bytes) (deadline : Int64) :
    KeepsLifecycle
      (bindRequest plan context requestDigest requestCose frozenPlan deadline) :=
  ⟨fun _ => ⟨rfl, rfl, rfl, rfl, rfl, rfl, rfl, rfl⟩, fun _ => rfl, fun _ => rfl⟩

/-- The transaction closes a request: after its transition and a change of further
columns, its receipt is made. -/
theorem moved_of_receipt [Cryptography] {requestId : PublicId}
    {expected : Option RequestState} {next : RequestState}
    {reason : TransitionReason} {signer : BrokerSigningKey} {nowUtc : Int64}
    {evidence : List CborValue} {entropy : Entropy} {pinned : IdentityRow}
    {change : RequestRow → RequestRow} {before between middle after : Database}
    {done : Unit} {bytes : Bytes}
    (hIdentity : before.brokerIdentity = some pinned)
    (hNames : pinned.Names signer)
    (hAppend : appendTransition requestId expected next reason before =
      .ok (done, between))
    (hChange : KeepsLifecycle change)
    (hSelf : middle.dossier requestId =
      { between.dossier requestId with
        row := (between.dossier requestId).row.map change })
    (hOther : ∀ other, other ≠ requestId →
      middle.dossier other = between.dossier other)
    (hReceipt : createReceipt requestId next signer nowUtc evidence entropy middle =
      .ok (bytes, after))
    (hClosed : next.isTerminal = true) :
    ∃ old new, (∀ state ∈ expected, old.state = state) ∧ new.state = next ∧
      Moved before.brokerIdentity requestId reason old new
        (before.dossier requestId) (after.dossier requestId) ∧
      ∀ other, other ≠ requestId → after.dossier other = before.dossier other := by
  obtain ⟨old, event, hOld, hState, hEvent, hBetween⟩ := appendTransition_eq_ok hAppend
  obtain ⟨closing, made, hClosing, hUnset, hMade, hReceipts, -, hAfter⟩ :=
    createReceipt_eq_ok hReceipt
  -- What the transition, the change and the receipt make of the dossier.
  have hAdvanced : between.dossier requestId =
      { row := some { old with state := next }
        events := before.eventsOf requestId ++ [event.toRow requestId]
        receipts := before.receiptsOf requestId } := by
    rw [hBetween, Tables.dossier_advance hOld, if_pos rfl]
  rw [hAdvanced] at hSelf
  have hRow : middle.request? requestId = some (change { old with state := next }) :=
    congrArg Dossier.row hSelf
  have hEvents : middle.eventsOf requestId =
      before.eventsOf requestId ++ [event.toRow requestId] :=
    congrArg Dossier.events hSelf
  have hSame : middle.receiptsOf requestId = before.receiptsOf requestId :=
    congrArg Dossier.receipts hSelf
  have hNext : (change { old with state := next }).state = next :=
    hChange.state { old with state := next }
  have hBytes := hChange.receiptBytes { old with state := next }
  have hColumns := (SameSubmission.setState old next).trans
    (hChange.submission { old with state := next })
  rw [hRow, Option.some.injEq] at hClosing
  rw [hClosing] at hRow hNext hBytes hColumns
  have hDossier : after.dossier requestId =
      { row := some { closing with receiptBytes := some made.coseBytes }
        events := before.eventsOf requestId ++ [event.toRow requestId]
        receipts := [made] } := by
    rw [hAfter, Tables.dossier_close hMade.requestId hRow, if_pos rfl, hEvents,
      hReceipts, List.nil_append]
  refine ⟨old, { closing with receiptBytes := some made.coseBytes }, hState, hNext,
    ?_, ?_⟩
  · rw [hDossier]
    refine ⟨hOld, rfl,
      hColumns.trans (SameSubmission.setReceiptBytes closing made.coseBytes),
      ⟨event, ?_, rfl⟩, ?_, ?_⟩
    · show NextEvent requestId closing.state reason _ event
      rw [hNext]
      exact hEvent
    · intro hOpen
      change closing.state.isTerminal = false at hOpen
      rw [hNext, hClosed] at hOpen
      cases hOpen
    · intro _
      refine ⟨made, ⟨pinned, signer, nowUtc, evidence, middle.brokerMetadata,
        hIdentity, hNames, ?_⟩, ?_, rfl, ?_, rfl⟩
      · -- The receipt reads no column that setting its bytes changes.
        rw [← hNext] at hMade
        exact ⟨hMade.contents, hMade.requestId, hMade.requesterUid,
          hMade.terminalState, hMade.createdUtc, hMade.completedUtc⟩
      · show before.receiptsOf requestId = []
        rw [← hSame, hReceipts]
      · exact hBytes.symm.trans hUnset
  · intro other hNe
    rw [hAfter, Tables.dossier_close hMade.requestId hRow, if_neg hNe,
      hOther other hNe, hBetween, Tables.dossier_advance hOld, if_neg hNe]

/-- Raising a signature counter is not seen in any dossier. -/
theorem dossier_raiseSignCount {verified : VerifiedAssertion}
    {before after : Database} {result : Unit} {other : PublicId}
    (h : raiseSignCount verified before = .ok (result, after)) :
    after.dossier other = before.dossier other := by
  rw [execute_eq_ok_iff.mp h]
  rfl

/-- An id without a request has neither events nor receipts. -/
theorem dossier_of_absent {before : Database} {requestId : PublicId}
    (hAbsent : before.request? requestId = none) :
    before.dossier requestId = { row := none, events := [], receipts := [] } := by
  have hUnused := Table.lookup_eq_none_iff.mp hAbsent
  have hEvents : before.eventsOf requestId = [] := by
    apply List.eq_nil_iff_forall_not_mem.mpr
    intro row hRow
    obtain ⟨hMem, hId⟩ := Table.mem_select_iff.mp hRow
    exact hUnused (hId ▸ before.constraints.eventReferences row hMem)
  have hReceipts : before.receiptsOf requestId = [] := by
    apply List.eq_nil_iff_forall_not_mem.mpr
    intro row hRow
    obtain ⟨hMem, hId⟩ := Table.mem_select_iff.mp hRow
    exact hUnused (hId ▸ before.constraints.receiptReferences row hMem)
  unfold Tables.dossier
  rw [hAbsent, hEvents, hReceipts]

theorem insertCredentials_eq_ok {generation : Int64} {pins : List CredentialPin}
    {before after : Database} {result : Unit}
    (h : insertCredentials generation pins before = .ok (result, after)) :
    after.toTables =
      { before.toTables with
        credentials :=
          before.credentials ++ pins.map (CredentialPin.toRow generation) } := by
  induction pins generalizing before with
  | nil =>
      rw [insertCredentials, run_pure_eq_ok_iff] at h
      obtain ⟨-, rfl⟩ := h
      rw [List.map_nil, List.append_nil]
  | cons pin pins ih =>
      rw [insertCredentials, run_bind_eq_ok_iff] at h
      obtain ⟨_, between, hInsert, hRest⟩ := h
      rw [execute_eq_ok_iff] at hInsert
      rw [ih hRest, hInsert, List.map_cons]
      simp

/-- Replacing the credentials sets the active generation. -/
theorem replaceCredentials_eq_ok {generation : UInt64} {pins : List CredentialPin}
    {before after : Database} {result : Unit}
    (h : replaceCredentials generation pins before = .ok (result, after)) :
    (pins ≠ [] ∧ ∀ pin ∈ pins, pin.Acceptable) ∧
    ∃ active : Int64, active.toInt = generation.toNat ∧
      after.toTables =
        { before.toTables with
          credentials := pins.map (CredentialPin.toRow active)
          brokerMetadata :=
            { before.brokerMetadata with credentialGeneration := active } } := by
  simp only [replaceCredentials, run_bind_eq_ok_iff, attempt_eq_ok_iff,
    rejectIf_eq_ok_iff, orFault_eq_ok_iff, toI64?_eq_some_iff, execute_eq_ok_iff,
    not_or, not_exists, not_and, not_not] at h
  obtain ⟨_, _, ⟨hPins, rfl⟩, active, _, ⟨hActive, rfl⟩, _, cleared, hCleared, _,
    inserted, hInserted, hAfter⟩ := h
  refine ⟨hPins, active, hActive, ?_⟩
  rw [hAfter, insertCredentials_eq_ok hInserted, hCleared]
  rfl

/-! ### Effects of the operations -/

section Operations

variable [Cryptography] {deviceIdBytes : ByteArr 16} {snapshots : Snapshots}
  {before after : Database} {requestId other : PublicId}

/-- A call that keeps the three tables of the requests keeps every dossier. -/
theorem effect_of_tables {call : Call}
    (hSpared : ¬ call.Concerns other before.toTables)
    (hRequests : after.requests = before.requests)
    (hEvents : after.requestEvents = before.requestEvents)
    (hReceipts : after.receipts = before.receipts) :
    Effect deviceIdBytes snapshots call other before.toTables after.toTables := by
  refine .kept ?_ hSpared
  unfold Tables.dossier Tables.request? Tables.eventsOf Tables.receiptsOf
  rw [hRequests, hEvents, hReceipts]

/-- A call that opens with a check of the signer and closes a request. -/
theorem effect_of_receipt {call : Call} {expected next : RequestState}
    {reason : TransitionReason} {signer : BrokerSigningKey} {nowUtc : Int64}
    {evidence : List CborValue} {entropy : Entropy}
    {change : RequestRow → RequestRow} {between middle : Database} {done : Unit}
    {bytes : Bytes}
    (hPinned : ∃ pinned, before.brokerIdentity = some pinned ∧ pinned.Names signer)
    (hAppend : appendTransition requestId (some expected) next reason before =
      .ok (done, between))
    (hChange : KeepsLifecycle change)
    (hSelf : middle.dossier requestId =
      { between.dossier requestId with
        row := (between.dossier requestId).row.map change })
    (hOther : ∀ other, other ≠ requestId →
      middle.dossier other = between.dossier other)
    (hReceipt : createReceipt requestId next signer nowUtc evidence entropy middle =
      .ok (bytes, after))
    (hClosed : next.isTerminal = true)
    (hDrives : Drives deviceIdBytes snapshots before.toTables requestId call expected
      next reason)
    (hSpared : other ≠ requestId → ¬ call.Concerns other before.toTables) :
    Effect deviceIdBytes snapshots call other before.toTables after.toTables := by
  obtain ⟨pinned, hIdentity, hNames⟩ := hPinned
  obtain ⟨old, new, hExpected, hNext, hMoved, hKept⟩ :=
    moved_of_receipt hIdentity hNames hAppend hChange hSelf hOther hReceipt hClosed
  by_cases hSame : other = requestId
  · subst hSame
    refine .moved old new reason hMoved ?_
    rw [hExpected expected rfl, hNext]
    exact hDrives
  · exact .kept (hKept other hSame) (hSpared hSame)

/-- A call that moves a request to a state that is not terminal, and may change
further columns of its row. -/
theorem effect_of_advance {call : Call} {expected next : RequestState}
    {reason : TransitionReason} {change : RequestRow → RequestRow}
    {between : Database}
    (hAdvance : ∃ row event, before.request? requestId = some row ∧
      (∀ state ∈ some expected, row.state = state) ∧
      NextEvent requestId next reason (before.eventsOf requestId) event ∧
      between.toTables = before.toTables.advance requestId next event)
    (hOpen : next.isTerminal = false) (hChange : KeepsLifecycle change)
    (hSelf : after.dossier requestId =
      { between.dossier requestId with
        row := (between.dossier requestId).row.map change })
    (hOther : ∀ other, other ≠ requestId →
      after.dossier other = between.dossier other)
    (hDrives : Drives deviceIdBytes snapshots before.toTables requestId call expected
      next reason)
    (hSpared : other ≠ requestId → ¬ call.Concerns other before.toTables) :
    Effect deviceIdBytes snapshots call other before.toTables after.toTables := by
  obtain ⟨row, event, hRow, hExpected, hEvent, hBetween⟩ := hAdvance
  by_cases hSame : other = requestId
  · subst hSame
    rw [hBetween, Tables.dossier_advance hRow, if_pos rfl] at hSelf
    have hState : (change { row with state := next }).state = next := hChange.state _
    refine .moved row (change { row with state := next }) reason
      (moved_of_advance hRow hEvent hOpen hState
        ((SameSubmission.setState row next).trans (hChange.submission _))
        (hChange.receiptBytes _) hSelf) ?_
    rw [hExpected expected rfl, hState]
    exact hDrives
  · refine .kept ?_ (hSpared hSame)
    rw [hOther other hSame, hBetween, Tables.dossier_advance hRow, if_neg hSame]

/-! ### What each operation runs -/

/-- A transition to a state that is not terminal is permitted, and is all that the
operation does. -/
theorem transitionNonterminal_eq_ok {expected next result : RequestState}
    (h : transitionNonterminal requestId expected next before = .ok (result, after)) :
    (next.isTerminal = false ∧ expected.permits next = true) ∧
      ∃ row event, before.request? requestId = some row ∧
        (∀ state ∈ some expected, row.state = state) ∧
        NextEvent requestId next (transitionReason next) (before.eventsOf requestId)
          event ∧
        after.toTables = before.toTables.advance requestId next event := by
  simp only [transitionNonterminal, run_bind_eq_ok_iff, attempt_eq_ok_iff,
    rejectIf_eq_ok_iff, not_or, Bool.not_eq_true, Bool.not_eq_false,
    run_pure_eq_ok_iff] at h
  obtain ⟨_, _, ⟨hAllowed, rfl⟩, _, between, hSet, _, _, hInsert, -, rfl⟩ := h
  exact ⟨hAllowed, transition_eq_ok saturatingSucc_countsByOne hSet hInsert⟩

/-- A preparation signs the request of the planned row, moves it and binds it. -/
theorem prepareForDecision_runs {plan : FrozenPlan} {context : PendingRequestContext}
    {signer : BrokerSigningKey} {result : Bytes}
    (h : prepareForDecision deviceIdBytes requestId plan context signer before =
      .ok (result, after)) :
    ∃ row identity request digest payload frozen deadline between,
      before.request? requestId = some row ∧
      before.brokerIdentity = some identity ∧
      frozenRequest deviceIdBytes requestId row identity plan context =
        .ok request ∧
      request.digest = .ok digest ∧ request.canonicalBytes = .ok payload ∧
      signEnvelope signer payload COSE_CONTENT_TYPE_REQUEST .request = .ok result ∧
      appendTransition requestId (some .planning) .pending .plannerPending before =
        .ok ((), between) ∧
      updateRequest requestId (bindRequest plan context digest result frozen deadline)
        between = .ok ((), after) := by
  simp only [prepareForDecision, planningRow, identityRow, run_bind_eq_ok_iff,
    attempt_eq_ok_iff, ensureIdentity_eq_ok_iff, query_eq_ok_iff, bind_eq_ok_iff,
    orFault_eq_ok_iff, run_pure_eq_ok_iff, pure_eq_ok, mapError_eq_ok_iff,
    Except.ok.injEq] at h
  obtain ⟨_, _, ⟨-, rfl⟩, _, _, ⟨-, rfl⟩, _, _, ⟨⟨row, hRow, _, -, rfl⟩, rfl⟩, _, _,
    ⟨-, rfl⟩, identity, _, ⟨hIdentity, rfl⟩, request, _, ⟨hRequest, rfl⟩, digest, _,
    ⟨hDigest, rfl⟩, payload, _, ⟨hPayload, rfl⟩, cose, _, ⟨hCose, rfl⟩, frozen, _,
    ⟨-, rfl⟩, _, between, hAppend, deadline, _, ⟨-, rfl⟩, _, _, hUpdate, rfl, rfl⟩ := h
  exact ⟨row, identity, request, digest, payload, frozen, deadline, between, hRow,
    hIdentity, hRequest, hDigest, hPayload, hCose, hAppend, hUpdate⟩

/-- A transition to a terminal state is permitted and makes the receipt. -/
theorem transitionTerminal_runs {expected next : RequestState}
    {signer : BrokerSigningKey} {nowUtc : Int64} {entropy : Entropy} {result : Bytes}
    (h : transitionTerminal requestId expected next signer nowUtc entropy before =
      .ok (result, after)) :
    (next.isTerminal = true ∧ expected.permits next = true) ∧
      (∃ pinned, before.brokerIdentity = some pinned ∧ pinned.Names signer) ∧
      ∃ between, appendTransition requestId (some expected) next
          (transitionReason next) before = .ok ((), between) ∧
        createReceipt requestId next signer nowUtc [] entropy between =
          .ok (result, after) := by
  simp only [transitionTerminal, transitionTerminalWithEvidence, run_bind_eq_ok_iff,
    attempt_eq_ok_iff, rejectIf_eq_ok_iff, not_or, Bool.not_eq_false,
    ensureIdentity_eq_ok_iff] at h
  obtain ⟨_, _, ⟨hAllowed, rfl⟩, _, _, ⟨hPinned, rfl⟩, _, between, hAppend,
    hReceipt⟩ := h
  exact ⟨hAllowed, hPinned, between, hAppend, hReceipt⟩

/-- A reconciliation moves the request out of recovery, stores the evidence and makes
the receipt. -/
theorem reconcileRecovery_runs {succeeded : Bool} {evidence : Bytes}
    {signer : BrokerSigningKey} {nowUtc : Int64} {entropy : Entropy} {result : Bytes}
    (h : reconcileRecovery requestId succeeded evidence signer nowUtc entropy before =
      .ok (result, after)) :
    (evidence ≠ [] ∧ evidence.length ≤ 65536) ∧
      (∃ pinned, before.brokerIdentity = some pinned ∧ pinned.Names signer) ∧
      ∃ between middle, appendTransition requestId (some .recoveryRequired)
          (if succeeded then .succeeded else .failed)
          (if succeeded then .reconciledSucceeded else .reconciledFailed) before =
            .ok ((), between) ∧
        updateRequest requestId
          (fun row => { row with recoveryEvidence := some evidence }) between =
            .ok ((), middle) ∧
        createReceipt requestId (if succeeded then .succeeded else .failed) signer
          nowUtc [] entropy middle = .ok (result, after) := by
  simp only [reconcileRecovery, run_bind_eq_ok_iff, attempt_eq_ok_iff,
    rejectIf_eq_ok_iff, ensureIdentity_eq_ok_iff, not_or, not_lt] at h
  obtain ⟨_, _, ⟨hEvidence, rfl⟩, _, _, ⟨hPinned, rfl⟩, _, between, hAppend, _, middle,
    hUpdate, hReceipt⟩ := h
  exact ⟨hEvidence, hPinned, between, middle, hAppend, hUpdate, hReceipt⟩

/-- The paths of the transaction of a verified decision. -/
inductive CommitsDecision (requestId : PublicId) (submission : DecisionSubmission)
    (context : ApprovalContext) (verified : VerifiedAssertion)
    (signer : BrokerSigningKey) (nowUtc : Int64) (entropy : Entropy)
    (before after : Database) : DecisionOutcome → Prop
  | stale (generation : UInt64) (between : Database) (receipt : Bytes)
      (hGeneration : credentialGeneration before.toTables = .ok generation)
      (hChanged : generation ≠ context.generation)
      (hAppend : appendTransition requestId (some .pending) .stale .generationStale
        before = .ok ((), between))
      (hReceipt : createReceipt requestId .stale signer nowUtc [] entropy between =
        .ok (receipt, after)) :
      CommitsDecision requestId submission context verified signer nowUtc entropy
        before after { state := .stale, receiptCose := some receipt }
  | closed (between middle : Database) (receipt : Bytes)
      (hGeneration : credentialGeneration before.toTables = .ok context.generation)
      (hTerminal : (decidedState verified.decision).isTerminal = true)
      (hAppend : appendTransition requestId (some .pending)
        (decidedState verified.decision)
        (transitionReason (decidedState verified.decision)) before =
          .ok ((), between))
      (hRaise : raiseSignCount verified between = .ok ((), middle))
      (hReceipt : createReceipt requestId (decidedState verified.decision) signer
        nowUtc [denialEvidence submission verified] entropy middle =
          .ok (receipt, after)) :
      CommitsDecision requestId submission context verified signer nowUtc entropy
        before after
        { state := decidedState verified.decision, receiptCose := some receipt }
  | opened (between : Database)
      (hGeneration : credentialGeneration before.toTables = .ok context.generation)
      (hOpen : (decidedState verified.decision).isTerminal = false)
      (hAppend : appendTransition requestId (some .pending)
        (decidedState verified.decision)
        (transitionReason (decidedState verified.decision)) before =
          .ok ((), between))
      (hRaise : raiseSignCount verified between = .ok ((), after)) :
      CommitsDecision requestId submission context verified signer nowUtc entropy
        before after
        { state := decidedState verified.decision, receiptCose := none }

theorem commitDecision_runs {submission : DecisionSubmission}
    {context : ApprovalContext} {verified : VerifiedAssertion}
    {signer : BrokerSigningKey} {nowUtc : Int64} {entropy : Entropy}
    {result : DecisionOutcome}
    (h : commitDecision requestId submission context verified signer nowUtc entropy
      before = .ok (result, after)) :
    (∃ pinned, before.brokerIdentity = some pinned ∧ pinned.Names signer) ∧
      CommitsDecision requestId submission context verified signer nowUtc entropy
        before after result := by
  simp only [commitDecision, run_bind_eq_ok_iff, attempt_eq_ok_iff,
    ensureIdentity_eq_ok_iff, query_eq_ok_iff] at h
  obtain ⟨_, _, ⟨hPinned, rfl⟩, _, _, ⟨-, rfl⟩, _, _, ⟨-, rfl⟩, generation, _,
    ⟨hGeneration, rfl⟩, h⟩ := h
  refine ⟨hPinned, ?_⟩
  by_cases hChanged : generation ≠ context.generation
  · -- The generation moved on after the reads: the request is stale.
    rw [if_pos hChanged] at h
    simp only [run_bind_eq_ok_iff, run_pure_eq_ok_iff] at h
    obtain ⟨_, between, hAppend, receipt, _, hReceipt, rfl, rfl⟩ := h
    exact .stale generation between receipt hGeneration hChanged hAppend hReceipt
  · rw [if_neg hChanged] at h
    rw [not_not.mp hChanged] at hGeneration
    simp only [run_bind_eq_ok_iff] at h
    obtain ⟨_, between, hAppend, _, middle, hRaise, h⟩ := h
    by_cases hTerminal : (decidedState verified.decision).isTerminal = true
    · rw [if_pos hTerminal] at h
      simp only [run_bind_eq_ok_iff, run_pure_eq_ok_iff] at h
      obtain ⟨receipt, _, hReceipt, rfl, rfl⟩ := h
      exact .closed between middle receipt hGeneration hTerminal hAppend hRaise hReceipt
    · rw [if_neg hTerminal, run_pure_eq_ok_iff] at h
      obtain ⟨rfl, rfl⟩ := h
      exact .opened between hGeneration (Bool.eq_false_iff.mpr hTerminal) hAppend hRaise

/-- A boot of the stored epoch does nothing; a boot of another epoch expires the work of
other boots and then stores its epoch. -/
theorem startBoot_runs {bootEpoch : UInt64} {signer : BrokerSigningKey}
    {nowUtc : Int64} {entropy : Nat → Entropy} {changed : Nat}
    (h : startBoot bootEpoch signer nowUtc entropy before = .ok (changed, after)) :
    ∃ epoch : Int64, epoch.toInt = bootEpoch.toNat ∧
      ((before.brokerMetadata.bootEpoch = epoch ∧ changed = 0 ∧ before = after) ∨
      (before.brokerMetadata.bootEpoch ≠ epoch ∧
        (∃ pinned, before.brokerIdentity = some pinned ∧ pinned.Names signer) ∧
        ∃ between, expireAll signer nowUtc (workToExpire epoch before.toTables) entropy
            before = .ok (changed, between) ∧
          after.toTables =
            { between.toTables with
              brokerMetadata :=
                { between.brokerMetadata with bootEpoch := epoch } })) := by
  simp only [startBoot, run_bind_eq_ok_iff, attempt_eq_ok_iff, query_eq_ok_iff,
    orFault_eq_ok_iff, toI64?_eq_some_iff, Except.ok.injEq] at h
  obtain ⟨epoch, _, ⟨hEpoch, rfl⟩, _, _, ⟨rfl, rfl⟩, h⟩ := h
  refine ⟨epoch, hEpoch, ?_⟩
  by_cases hSame : before.brokerMetadata.bootEpoch = epoch
  · rw [if_pos hSame, run_pure_eq_ok_iff] at h
    exact Or.inl ⟨hSame, h.1.symm, h.2⟩
  · rw [if_neg hSame] at h
    simp only [run_bind_eq_ok_iff, ensureIdentity_eq_ok_iff, query_eq_ok_iff,
      execute_eq_ok_iff, run_pure_eq_ok_iff, Except.ok.injEq] at h
    obtain ⟨_, _, ⟨hPinned, rfl⟩, _, _, ⟨rfl, rfl⟩, _, between, hExpire, _, booted,
      hAfter, rfl, rfl⟩ := h
    exact Or.inr ⟨hSame, hPinned, between, hExpire, hAfter⟩

/-! ### The effect of each operation -/

theorem transitionNonterminal_effect {expected next result : RequestState}
    (h : transitionNonterminal requestId expected next before = .ok (result, after)) :
    Effect deviceIdBytes snapshots (.transitionNonterminal requestId expected next)
      other before.toTables after.toTables := by
  obtain ⟨⟨hOpen, hEdge⟩, hAdvance⟩ := transitionNonterminal_eq_ok h
  refine effect_of_advance hAdvance hOpen KeepsLifecycle.id ?_ (fun _ _ => rfl)
    (.nonterminal expected next hOpen hEdge) fun hOther hNamed => hOther hNamed.symm
  simp

theorem prepareForDecision_effect {plan : FrozenPlan}
    {context : PendingRequestContext} {signer : BrokerSigningKey} {result : Bytes}
    (h : prepareForDecision deviceIdBytes requestId plan context signer before =
      .ok (result, after)) :
    Effect deviceIdBytes snapshots (.prepareForDecision requestId plan context signer)
      other before.toTables after.toTables := by
  obtain ⟨_, _, _, digest, _, frozen, deadline, between, -, -, -, -, -, -, hAppend,
    hUpdate⟩ := prepareForDecision_runs h
  have hAfter := updateRequest_eq_ok_iff.mp hUpdate
  have hBind := bindRequest_keepsLifecycle plan context digest result frozen deadline
  have hKeepsId : ∀ row, (bindRequest plan context digest result frozen deadline
      row).requestId = row.requestId := fun row => (hBind.submission row).requestId
  refine effect_of_advance (appendTransition_eq_ok hAppend) rfl hBind ?_ ?_
    (.prepared plan context signer) fun hOther hNamed => hOther hNamed.symm
  · rw [hAfter, Tables.dossier_modifyRequest_self hKeepsId]
  · intro different hNe
    rw [hAfter, Tables.dossier_modifyRequest_of_ne hKeepsId hNe]

theorem transitionTerminal_effect {call : Call} {expected next : RequestState}
    {signer : BrokerSigningKey} {nowUtc : Int64} {entropy : Entropy} {result : Bytes}
    (h : transitionTerminal requestId expected next signer nowUtc entropy before =
      .ok (result, after))
    (hDrives : next.isTerminal = true → expected.permits next = true →
      Drives deviceIdBytes snapshots before.toTables requestId call expected next
        (transitionReason next))
    (hSpared : other ≠ requestId → ¬ call.Concerns other before.toTables) :
    Effect deviceIdBytes snapshots call other before.toTables after.toTables := by
  obtain ⟨⟨hClosed, hEdge⟩, hPinned, between, hAppend, hReceipt⟩ :=
    transitionTerminal_runs h
  refine effect_of_receipt hPinned hAppend KeepsLifecycle.id ?_ (fun _ _ => rfl)
    hReceipt hClosed (hDrives hClosed hEdge) hSpared
  simp

theorem reconcileRecovery_effect {succeeded : Bool} {evidence : Bytes}
    {signer : BrokerSigningKey} {nowUtc : Int64} {entropy : Entropy} {result : Bytes}
    (h : reconcileRecovery requestId succeeded evidence signer nowUtc entropy before =
      .ok (result, after)) :
    Effect deviceIdBytes snapshots
      (.reconcileRecovery requestId succeeded evidence signer nowUtc entropy) other
      before.toTables after.toTables := by
  obtain ⟨-, hPinned, between, middle, hAppend, hUpdate, hReceipt⟩ :=
    reconcileRecovery_runs h
  have hMiddle := updateRequest_eq_ok_iff.mp hUpdate
  have hChange : KeepsLifecycle fun row =>
      { row with recoveryEvidence := some evidence } :=
    ⟨fun _ => ⟨rfl, rfl, rfl, rfl, rfl, rfl, rfl, rfl⟩, fun _ => rfl, fun _ => rfl⟩
  refine effect_of_receipt hPinned hAppend hChange ?_ ?_ hReceipt ?_
    (.reconciled succeeded evidence signer nowUtc entropy)
    fun hOther hNamed => hOther hNamed.symm
  · rw [hMiddle, Tables.dossier_modifyRequest_self (by simp)]
  · intro different hNe
    rw [hMiddle, Tables.dossier_modifyRequest_of_ne (by simp) hNe]
  · cases succeeded <;> rfl

theorem commitDecision_effect {decision : DecisionAttempt}
    {context : ApprovalContext} {verified : VerifiedAssertion}
    {signer : BrokerSigningKey} {entropy : Entropy} {result : DecisionOutcome}
    (hRead : decision.read deviceIdBytes snapshots = .ok (.decided context verified))
    (h : commitDecision decision.requestId decision.submission context verified
      signer decision.nowUtc entropy before = .ok (result, after)) :
    Effect deviceIdBytes snapshots (.applyWebauthnSubmission decision signer entropy)
      other before.toTables after.toTables := by
  obtain ⟨hPinned, hRuns⟩ := commitDecision_runs h
  cases hRuns with
  | stale generation between receipt hGeneration hChanged hAppend hReceipt =>
      refine effect_of_receipt hPinned hAppend KeepsLifecycle.id ?_ (fun _ _ => rfl)
        hReceipt rfl (.lapsed decision signer entropy rfl .stale (Or.inr rfl))
        fun hOther hNamed => hOther hNamed.symm
      simp
  | closed between middle receipt hGeneration hTerminal hAppend hRaise hReceipt =>
      refine effect_of_receipt hPinned hAppend KeepsLifecycle.id ?_ ?_ hReceipt
        hTerminal
        (.decided decision signer entropy rfl context verified hRead hGeneration)
        fun hOther hNamed => hOther hNamed.symm
      · rw [dossier_raiseSignCount hRaise]
        simp
      · intro different _
        exact dossier_raiseSignCount hRaise
  | opened between hGeneration hOpen hAppend hRaise =>
      refine effect_of_advance (appendTransition_eq_ok hAppend) hOpen
        KeepsLifecycle.id ?_ ?_
        (.decided decision signer entropy rfl context verified hRead hGeneration)
        fun hOther hNamed => hOther hNamed.symm
      · rw [dossier_raiseSignCount hRaise]
        simp
      · intro different _
        exact dossier_raiseSignCount hRaise

/-- How the reads of a decision come to their result. -/
inductive DecisionAttempt.Reads (decision : DecisionAttempt)
    (deviceIdBytes : ByteArr 16) (snapshots : Snapshots) : Reading → Prop
  | expired (context : ApprovalContext)
      (hContext : decision.context deviceIdBytes snapshots.request
        snapshots.identity = .ok context)
      (hExpired : decision.isExpired context snapshots.deadline = .ok true) :
      Reads decision deviceIdBytes snapshots (.close .expired)
  | stale (context : ApprovalContext) (active : UInt64)
      (hContext : decision.context deviceIdBytes snapshots.request
        snapshots.identity = .ok context)
      (hInTime : decision.isExpired context snapshots.deadline = .ok false)
      (hActive : credentialGeneration snapshots.generation = .ok active)
      (hChanged : active ≠ context.generation) :
      Reads decision deviceIdBytes snapshots (.close .stale)
  | decided (context : ApprovalContext) (credentials : List PinnedCredential)
      (verified : VerifiedAssertion)
      (hContext : decision.context deviceIdBytes snapshots.request
        snapshots.identity = .ok context)
      (hInTime : decision.isExpired context snapshots.deadline = .ok false)
      (hActive : credentialGeneration snapshots.generation = .ok context.generation)
      (hCredentials : pinnedCredentials context.generation snapshots.credentials =
        .ok credentials)
      (hVerified : verifySubmission decision.verifier context credentials
        decision.submission = .ok verified) :
      Reads decision deviceIdBytes snapshots (.decided context verified)

theorem DecisionAttempt.read_eq_ok_iff {decision : DecisionAttempt}
    {reading : Reading} :
    decision.read deviceIdBytes snapshots = .ok reading ↔
      decision.Reads deviceIdBytes snapshots reading := by
  constructor
  · intro h
    simp only [DecisionAttempt.read, bind_eq_ok_iff] at h
    obtain ⟨context, hContext, expired, hExpired, h⟩ := h
    cases expired with
    | true =>
        rw [if_pos rfl] at h
        cases h
        exact .expired context hContext hExpired
    | false =>
        rw [if_neg (by decide), bind_eq_ok_iff] at h
        obtain ⟨active, hActive, h⟩ := h
        by_cases hChanged : active ≠ context.generation
        · rw [if_pos hChanged] at h
          cases h
          exact .stale context active hContext hExpired hActive hChanged
        · rw [if_neg hChanged] at h
          have hSame := not_not.mp hChanged
          subst hSame
          simp only [bind_eq_ok_iff, mapError_eq_ok_iff] at h
          obtain ⟨credentials, hCredentials, verified, hVerified, h⟩ := h
          cases h
          exact .decided context credentials verified hContext hExpired hActive
            hCredentials hVerified
  · intro h
    cases h with
    | expired context hContext hExpired =>
        simp only [DecisionAttempt.read, hContext, hExpired, ok_bind, if_true,
          pure_eq_ok]
    | stale context active hContext hInTime hActive hChanged =>
        simp only [DecisionAttempt.read, hContext, hInTime, hActive, ok_bind,
          Bool.false_eq_true, if_false, if_pos hChanged, pure_eq_ok]
    | decided context credentials verified hContext hInTime hActive hCredentials
        hVerified =>
        simp only [DecisionAttempt.read, hContext, hInTime, hActive, hCredentials,
          ok_bind, Bool.false_eq_true, if_false, ne_eq, not_true_eq_false,
          bind_eq_ok_iff, mapError_eq_ok_iff, pure_eq_ok, Except.ok.injEq]
        exact ⟨verified, hVerified, rfl⟩

/-- The reads close a request only as expired or stale. -/
theorem DecisionAttempt.read_close {decision : DecisionAttempt}
    {next : RequestState}
    (h : decision.read deviceIdBytes snapshots = .ok (.close next)) :
    next = .expired ∨ next = .stale := by
  cases DecisionAttempt.read_eq_ok_iff.mp h with
  | expired => exact Or.inl rfl
  | stale => exact Or.inr rfl

theorem applyWebauthnSubmission_effect {decision : DecisionAttempt}
    {signer : BrokerSigningKey} {entropy : Entropy} {result : DecisionOutcome}
    (h : applyWebauthnSubmission deviceIdBytes snapshots decision signer entropy
      before = .ok (result, after)) :
    Effect deviceIdBytes snapshots (.applyWebauthnSubmission decision signer entropy)
      other before.toTables after.toTables := by
  simp only [applyWebauthnSubmission, run_bind_eq_ok_iff, attempt_eq_ok_iff] at h
  obtain ⟨reading, _, ⟨hRead, rfl⟩, h⟩ := h
  cases reading with
  | close next =>
      simp only [run_bind_eq_ok_iff, run_pure_eq_ok_iff] at h
      obtain ⟨_, _, hTerminal, -, rfl⟩ := h
      refine transitionTerminal_effect hTerminal ?_ ?_
      · intro _ _
        exact .lapsed decision signer entropy rfl next
          (DecisionAttempt.read_close hRead)
      · exact fun hOther hNamed => hOther hNamed.symm
  | decided context verified => exact commitDecision_effect hRead h

/-- A submission creates a request whose id was not in use, or changes nothing. -/
theorem submit_eq_ok {deviceId : String} {request : SubmitPackageInstall}
    {policy : PackageInstallPolicy} {outcome : SubmitOutcome}
    (h : submit deviceId request policy before = .ok (outcome, after)) :
    (after = before ∧ ∃ summary, outcome = .existing summary) ∨
      ∃ generation : Int64, generation.toInt = request.generation.toNat ∧
        outcome = .created
          { requestId := request.requestId
            requesterUid := request.requesterUid
            state := .planning
            generation := request.generation } ∧
        activeRequest deviceId before.toTables = none ∧
        before.request? request.requestId = none ∧
        after.toTables = (before.toTables.addRequest
          (newRequest deviceId request generation)).addEvent
            (createdEvent request.requestId) := by
  simp only [submit, run_bind_eq_ok_iff, attempt_eq_ok_iff, query_eq_ok_iff] at h
  obtain ⟨_, _, ⟨-, rfl⟩, existing, _, ⟨-, rfl⟩, h⟩ := h
  cases existing with
  | some existing =>
      simp only [run_bind_eq_ok_iff, attempt_eq_ok_iff, run_pure_eq_ok_iff] at h
      obtain ⟨_, _, ⟨-, rfl⟩, rfl, rfl⟩ := h
      exact Or.inl ⟨rfl, existing.summary, rfl⟩
  | none =>
      simp only [run_bind_eq_ok_iff, query_eq_ok_iff, Except.ok.injEq] at h
      obtain ⟨holder, _, ⟨hHolder, rfl⟩, h⟩ := h
      cases holder with
      | some row =>
          rw [attempt_eq_ok_iff] at h
          cases h.1
      | none =>
          simp only [run_bind_eq_ok_iff, attempt_eq_ok_iff, orFault_eq_ok_iff,
            toI64?_eq_some_iff, execute_eq_ok_iff, run_pure_eq_ok_iff] at h
          obtain ⟨generation, _, ⟨hGeneration, rfl⟩, _, between, hRequest, _, _,
            hEvent, rfl, rfl⟩ := h
          refine Or.inr ⟨generation, hGeneration, rfl, hHolder, ?_, ?_⟩
          · -- The key of the table rejects a second row with this id.
            have hKey := between.constraints.requestKey
            rw [hRequest] at hKey
            unfold Table.Keyed at hKey
            rw [List.map_append, List.map_singleton] at hKey
            apply Table.lookup_eq_none_iff.mpr
            intro hUsed
            exact (List.nodup_append.mp hKey).2.2 _ hUsed _ List.mem_cons_self rfl
          · rw [hEvent, hRequest]
            rfl

theorem submit_effect {request : SubmitPackageInstall}
    {policy : PackageInstallPolicy} {outcome : SubmitOutcome}
    (h : submit (Base64Url.encodeText deviceIdBytes.val) request policy before =
      .ok (outcome, after)) :
    Effect deviceIdBytes snapshots (.submit request policy) other before.toTables
      after.toTables := by
  rcases submit_eq_ok h with ⟨rfl, -⟩ | ⟨generation, -, -, -, hAbsent, hAfter⟩
  · exact .kept rfl not_false
  · by_cases hOther : other = request.requestId
    · refine .created request policy generation rfl hOther.symm (hOther ▸ hAbsent) ?_
      rw [hAfter, Tables.dossier_addEvent rfl, if_pos hOther, hOther]
      have hDossier : ((before.toTables.addRequest (newRequest
          (Base64Url.encodeText deviceIdBytes.val) request generation)).dossier
          request.requestId) =
          { row := some (newRequest (Base64Url.encodeText deviceIdBytes.val) request
              generation)
            events := []
            receipts := [] } := by
        rw [Tables.dossier_addRequest rfl hAbsent, if_pos rfl,
          dossier_of_absent hAbsent]
      have hEvents := congrArg Dossier.events hDossier
      rw [hDossier]
      show Dossier.mk _ (Dossier.events (Tables.dossier _ _) ++ _) _ = _
      rw [hEvents]
      rfl
    · refine .kept ?_ not_false
      rw [hAfter, Tables.dossier_addEvent rfl, if_neg hOther,
        Tables.dossier_addRequest rfl hAbsent, if_neg hOther]

/-- Pinning an identity replaces the identity row; a row that was there keeps its
key, its epoch and its device id. -/
theorem initializeIdentity_eq_ok {signer : BrokerSigningKey} {entropy : Entropy}
    {result : ByteArr 16}
    (h : initializeIdentity signer entropy before = .ok (result, after)) :
    ∃ pinned, after.toTables = { before.toTables with brokerIdentity := some pinned } ∧
      (pinned.Names signer ∧
        (before.brokerIdentity = none → pinned.brokerEpoch = 0)) ∧
      pinned.deviceId = some result.val ∧
      ∀ old, before.brokerIdentity = some old →
        pinned = { old with deviceId := pinned.deviceId } ∧
          ∀ deviceId, old.deviceId = some deviceId → deviceId = result.val := by
  simp only [initializeIdentity, run_bind_eq_ok_iff, query_eq_ok_iff,
    Except.ok.injEq] at h
  obtain ⟨identity, _, ⟨hIdentity, rfl⟩, h⟩ := h
  cases identity with
  | none =>
      simp only [run_bind_eq_ok_iff, attempt_eq_ok_iff, execute_eq_ok_iff,
        run_pure_eq_ok_iff] at h
      obtain ⟨deviceId, _, ⟨-, rfl⟩, _, _, hAfter, rfl, rfl⟩ := h
      refine ⟨_, hAfter, ⟨⟨rfl, rfl⟩, fun _ => rfl⟩, rfl, ?_⟩
      intro old hOld
      rw [hIdentity] at hOld
      cases hOld
  | some row =>
      simp only [run_bind_eq_ok_iff, attempt_eq_ok_iff, rejectIf_eq_ok_iff,
        not_not] at h
      obtain ⟨_, _, ⟨hNames, rfl⟩, h⟩ := h
      have hFirst : before.brokerIdentity = none → row.brokerEpoch = 0 := by
        intro hNone
        rw [hIdentity] at hNone
        cases hNone
      -- A stored device id is read back; a missing one is filled in.
      cases hDevice : row.deviceId with
      | some deviceId =>
          rw [hDevice] at h
          simp only [attempt_eq_ok_iff, orFault_eq_ok_iff,
            ByteArr.ofBytes?_eq_some_iff] at h
          obtain ⟨hBytes, rfl⟩ := h
          refine ⟨row, ?_, ⟨hNames, hFirst⟩, ?_, ?_⟩
          · rw [← hIdentity]
          · rw [hDevice, hBytes]
          · intro old hOld
            rw [hIdentity, Option.some.injEq] at hOld
            subst hOld
            refine ⟨rfl, ?_⟩
            intro found hFound
            rw [hDevice, Option.some.injEq] at hFound
            rw [← hFound, hBytes]
      | none =>
          rw [hDevice] at h
          simp only [run_bind_eq_ok_iff, attempt_eq_ok_iff, execute_eq_ok_iff,
            run_pure_eq_ok_iff] at h
          obtain ⟨deviceId, _, ⟨-, rfl⟩, _, _, hAfter, rfl, rfl⟩ := h
          rw [hIdentity, Option.map_some] at hAfter
          refine ⟨_, hAfter, ⟨hNames, hFirst⟩, rfl, ?_⟩
          intro old hOld
          rw [hIdentity, Option.some.injEq] at hOld
          subst hOld
          refine ⟨rfl, ?_⟩
          intro found hFound
          rw [hDevice] at hFound
          cases hFound

end Operations

end Broker
end RootPermit
