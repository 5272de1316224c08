import RootPermit.Broker.Progress

/-!
# Where a transaction finds the state corrupt

`CorruptState` is the error of a store whose rows cannot be read.  The checks of the
schema rule out most of its sources.  This module says what is left of them, for a
request whose id stands for sixteen bytes.

* `createReceipt_avoids`, `appendTransition_avoids` — the parts that never find it;
* `prepareForDecision_eq_corrupt`, `startBoot_eq_corrupt` and the others — the causes
  that are left, operation by operation.
-/

namespace RootPermit
namespace Broker

open Foundation Protocol WebAuthn

section Parts

variable {requestId : PublicId} {next : RequestState}

theorem executes {change : Tables → Tables} : Avoids .corruptState (execute change) :=
  execute_avoids nofun

/-- A read that cannot fail. -/
theorem queryTotal_avoids {α : Type} {read : Tables → α} :
    Avoids .corruptState (query fun tables => .ok (read tables)) :=
  query_avoids fun _ => nofun

theorem setState_avoids {expected : Option RequestState} :
    Avoids .corruptState (setState requestId expected next) := by
  refine queryTotal_avoids.bind fun changed _ => executes.bind fun _ _ =>
    queryTotal_avoids.bind fun actual _ => attempt_avoids ?_
  rw [ne_eq, rejectIf_eq_error_iff, not_and]
  intro _
  cases actual with
  | none => nofun
  | some state => nofun

theorem updateRequest_avoids {change : RequestRow → RequestRow} :
    Avoids .corruptState (updateRequest requestId change) :=
  executes

/-- Random bytes always spell an id that is read back. -/
theorem PublicId.bytes?_of_random {entropy : Entropy} {id : PublicId}
    (h : PublicId.random entropy = .ok id) : id.bytes? ≠ none := by
  cases entropy with
  | none => cases h
  | some bytes =>
      obtain ⟨_, hBytes⟩ := PublicId.IsRandom.bytes ⟨bytes, h⟩
      rw [PublicId.bytes, orFault_eq_ok_iff] at hBytes
      rw [hBytes]
      exact Option.some_ne_none _

theorem PublicId.random_ne_corrupt {entropy : Entropy} :
    PublicId.random entropy ≠ .error .corruptState := by
  cases entropy with
  | none => simp [PublicId.random, randomBytes16, orFault]
  | some bytes =>
      obtain ⟨id, hId, -⟩ := PublicId.random_eq_ok bytes
      rw [hId]
      intro hFailed
      cases hFailed

theorem setReceiptBytes_avoids {cose : Bytes} :
    Avoids .corruptState (setReceiptBytes requestId cose) := by
  refine queryTotal_avoids.bind fun row _ =>
    (attempt_avoids ?_).bind fun _ _ => updateRequest_avoids
  simp

theorem lookupIdempotency_ne_corrupt {uid : RequesterUid} {key : OperationKey}
    {tables : Tables} : lookupIdempotency uid key tables ≠ .error .corruptState := by
  unfold lookupIdempotency
  cases Table.lookup (fun row => (row.requesterUid, row.operationKey))
    (uid.asDb, key.asStr) tables.requests with
  | none => nofun
  | some row => simp [bind_eq_error_iff]

/-- Why a context is corrupt, other than the id: the time of expiry is missing. -/
theorem approvalContext_eq_corrupt {deviceIdBytes : ByteArr 16} {decision : Decision}
    {relyingParty : WebAuthnRelyingParty} {request : Database} {identity : Tables}
    (hId : requestId.bytes? ≠ none)
    (h : approvalContext deviceIdBytes requestId decision relyingParty request.toTables
      identity = .error .corruptState) :
    ∃ row, request.request? requestId = some row ∧ row.requestExpiresUtc = none := by
  simp only [approvalContext, bind_eq_error_iff, requestRow, orFault_eq_error_iff,
    orFault_eq_ok_iff, rejectIf_eq_error_iff, identityRow, PublicId.bytes, hId,
    reduceCtorEq, and_false, false_or, or_false, pure_eq_ok, exists_false,
    and_true] at h
  obtain ⟨row, hRow, digest, hDigest, nonce, hNonce, _, -, _, -, _, -, _, -, hRest⟩ := h
  obtain ⟨-, -, -, -, -, -, hDigestLength, hNonceLength, -⟩ :=
    Database.checked_of_request? hRow
  rcases hRest with hCorrupt | ⟨_, -, _, -, hCorrupt | ⟨_, -, hExpires⟩⟩
  · exact absurd hCorrupt (ByteArr.ofBytes?_ne_none (hDigestLength digest hDigest))
  · exact absurd hCorrupt (ByteArr.ofBytes?_ne_none (hNonceLength nonce hNonce))
  · exact ⟨row, hRow, hExpires⟩

theorem pinnedCredentials_ne_corrupt {generation : UInt64} {tables : Tables} :
    pinnedCredentials generation tables ≠ .error .corruptState := by
  intro h
  simp only [pinnedCredentials, bind_eq_error_iff, orFault_eq_error_iff, reduceCtorEq,
    and_false, false_or] at h
  obtain ⟨_, -, hRows⟩ := h
  obtain ⟨row, -, hRow⟩ := exists_of_mapM_eq_error hRows
  simp [pinCredential, bind_eq_error_iff] at hRow

theorem deadlineElapsed_eq_corrupt {nowMonoNs : UInt64} {tables : Tables}
    (h : deadlineElapsed requestId nowMonoNs tables = .error .corruptState) :
    ∃ row, tables.request? requestId = some row ∧ row.deadlineMonoNs = none := by
  simp only [deadlineElapsed, bind_eq_error_iff, requestRow, orFault_eq_error_iff,
    orFault_eq_ok_iff, reduceCtorEq, and_false, false_or, or_false, pure_eq_ok,
    exists_false, and_true] at h
  exact h

/-- The request of a decision is corrupt through its id, or its package has a name that
the protocol does not admit. -/
theorem frozenRequest_eq_corrupt {deviceIdBytes : ByteArr 16} {row : RequestRow}
    {identity : IdentityRow} {plan : FrozenPlan} {context : PendingRequestContext}
    (hId : requestId.bytes? ≠ none)
    (h : frozenRequest deviceIdBytes requestId row identity plan context =
      .error .corruptState) : validPackageName row.packageName = false := by
  simp only [frozenRequest, OperationInput.packageInstall, PublicId.bytes,
    bind_eq_error_iff, orFault_eq_error_iff, hId, mapError_eq_error_iff,
    rejectIf_eq_error_iff, reduceCtorEq, and_false, false_or, or_false,
    pure_eq_ok, exists_false, and_true, Bool.not_eq_true'] at h
  obtain ⟨_, -, _, -, _, -, _, -, _, hName, -⟩ := h
  exact hName

/-- Why the events of a request cannot be read: a stored state or reason is unknown. -/
theorem events_eq_corrupt {database : Database}
    (h : events requestId database.toTables = .error .corruptState) :
    ∃ row ∈ database.eventsOf requestId,
      RequestState.fromDb? row.state = none ∨
        TransitionReason.fromCode? row.reason = none := by
  obtain ⟨row, hRow, hFault⟩ := exists_of_mapM_eq_error h
  have hMem := (List.mem_insertionSort _).mp hRow
  obtain ⟨-, -, hPrevious, hDigest⟩ :=
    database.constraints.eventChecks row (Table.mem_select_iff.mp hMem).1
  refine ⟨row, hMem, ?_⟩
  have hDigests : ∀ bytes, row.previousEventDigest = some bytes →
      ByteArr.ofBytes? 32 bytes ≠ none :=
    fun bytes hBytes => ByteArr.ofBytes?_ne_none (hPrevious bytes hBytes)
  unfold eventOfRow at hFault
  split at hFault
  · rename_i bytes hColumn
    simp only [bind_eq_error_iff, map_eq_error_iff, orFault_eq_error_iff,
      ByteArr.ofBytes?_ne_none hDigest, hDigests bytes hColumn, reduceCtorEq, and_false,
      false_or, or_false, pure_eq_ok, exists_false, and_true] at hFault
    obtain ⟨_, -, _, -, _, -, hState | ⟨_, -, hReason⟩⟩ := hFault
    · exact .inl hState
    · exact .inr hReason
  · simp only [bind_eq_error_iff, orFault_eq_error_iff, ByteArr.ofBytes?_ne_none hDigest,
      reduceCtorEq, and_false, false_or, or_false, pure_eq_ok, exists_false,
      and_true] at hFault
    obtain ⟨_, -, _, -, _, -, hState | ⟨_, -, hReason⟩⟩ := hFault
    · exact .inl hState
    · exact .inr hReason

theorem request_ne_corrupt {tables : Tables} :
    request requestId tables ≠ .error .corruptState := by
  unfold request
  split
  · nofun
  · simp [bind_eq_error_iff]

variable [Cryptography]

theorem insertEvent_avoids {reason : TransitionReason}
    {advance : UInt64 → Option UInt64} :
    Avoids .corruptState (insertEvent requestId next reason advance) := by
  refine (query_avoids ?_).bind fun latest hLatest => (attempt_avoids ?_).bind
    fun current _ => (attempt_avoids ?_).bind fun sequence _ => (attempt_avoids ?_).bind
    fun digest _ => (attempt_avoids ?_).bind fun stored _ => executes
  · simp [latestEvent]
  · simp
  · simp
  · -- The schema keeps the digest of an event at its length.
    obtain ⟨before, _, hLatest⟩ := hLatest
    rw [query_eq_ok_iff, latestEvent, orFault_eq_ok_iff] at hLatest
    have hRow : latest ∈ before.eventsOf requestId :=
      (List.mem_insertionSort _).mp (List.mem_of_head? hLatest.1)
    have hChecked := before.constraints.eventChecks latest (Table.mem_select_iff.mp hRow).1
    simpa using ByteArr.ofBytes?_ne_none hChecked.2.2.2
  · simp

theorem appendTransition_avoids {expected : Option RequestState}
    {reason : TransitionReason} :
    Avoids .corruptState (appendTransition requestId expected next reason) :=
  setState_avoids.bind fun _ _ => insertEvent_avoids

theorem ensureIdentity_avoids {signer : BrokerSigningKey} :
    Avoids .corruptState (ensureIdentity signer) := by
  apply query_avoids
  intro database
  cases database.brokerIdentity with
  | none => simp
  | some row => simp

/-- The receipt of a checked row is corrupt through the id of its request only. -/
theorem receiptOf_ne_corrupt {receiptId : PublicId} {row : RequestRow}
    {metadata : MetadataRow} {nowUtc : Int64} {evidence : List CborValue}
    (hReceiptId : receiptId.bytes? ≠ none) (hId : requestId.bytes? ≠ none)
    (hRow : row.Checked) :
    receiptOf receiptId requestId row metadata next nowUtc evidence ≠
      .error .corruptState := by
  obtain ⟨-, hInput, -, -, -, hPlan, hRequest, -⟩ := hRow
  have hDigest : ByteArr.ofBytes? 32 (row.requestDigest.getD row.inputDigest) ≠ none := by
    apply ByteArr.ofBytes?_ne_none
    cases hColumn : row.requestDigest with
    | none => exact hInput
    | some bytes => exact hRequest bytes hColumn
  have hPlanDigest : digestColumn row.planDigest ≠ .error .corruptState := by
    cases hColumn : row.planDigest with
    | none => simp [digestColumn]
    | some bytes => simpa [digestColumn] using ByteArr.ofBytes?_ne_none (hPlan bytes hColumn)
  simp only [receiptOf, bind_eq_error_iff, orFault_eq_error_iff, hDigest, hPlanDigest,
    PublicId.bytes, hReceiptId, hId, false_or, reduceCtorEq, and_false, false_and,
    pure_eq_ok, exists_false, ne_eq, not_false_eq_true]

theorem createReceipt_avoids {signer : BrokerSigningKey} {nowUtc : Int64}
    {evidence : List CborValue} {entropy : Entropy} (hId : requestId.bytes? ≠ none) :
    Avoids .corruptState
      (createReceipt requestId next signer nowUtc evidence entropy) := by
  refine (attempt_avoids PublicId.random_ne_corrupt).bind fun receiptId hRandom =>
    (query_avoids ?_).bind fun row hRow => queryTotal_avoids.bind
    fun metadata _ => (attempt_avoids ?_).bind fun receipt _ => (attempt_avoids ?_).bind
    fun payload _ => (attempt_avoids ?_).bind fun cose _ => executes.bind fun _ _ =>
    (query_avoids ?_).bind fun stored _ => setReceiptBytes_avoids.bind fun _ _ => .pure _
  · simp [requestRow]
  · obtain ⟨_, _, hRandom⟩ := hRandom
    obtain ⟨before, _, hRow⟩ := hRow
    rw [query_eq_ok_iff, requestRow, orFault_eq_ok_iff] at hRow
    exact receiptOf_ne_corrupt
      (PublicId.bytes?_of_random (attempt_eq_ok_iff.mp hRandom).1) hId
      (Database.checked_of_request? hRow.1)
  · simp
  · simp [signEnvelope]
  · simp

theorem transitionTerminal_avoids {expected : RequestState} {signer : BrokerSigningKey}
    {nowUtc : Int64} {entropy : Entropy} (hId : requestId.bytes? ≠ none) :
    Avoids .corruptState
      (transitionTerminal requestId expected next signer nowUtc entropy) := by
  refine (attempt_avoids ?_).bind fun _ _ => ensureIdentity_avoids.bind fun _ _ =>
    appendTransition_avoids.bind fun _ _ => createReceipt_avoids hId
  simp

theorem transitionNonterminal_avoids {expected : RequestState} :
    Avoids .corruptState (transitionNonterminal requestId expected next) := by
  refine (attempt_avoids ?_).bind fun _ _ => setState_avoids.bind fun _ _ =>
    insertEvent_avoids.bind fun _ _ => .pure _
  simp

theorem submit_avoids {deviceId : String} {request : SubmitPackageInstall}
    {policy : PackageInstallPolicy} :
    Avoids .corruptState (submit deviceId request policy) := by
  refine (attempt_avoids ?_).bind fun _ _ =>
    (query_avoids fun _ => lookupIdempotency_ne_corrupt).bind fun found _ => ?_
  · simp
  cases found with
  | some existing =>
      refine (attempt_avoids ?_).bind fun _ _ => .pure _
      simp
  | none =>
      refine queryTotal_avoids.bind fun holder _ => ?_
      cases holder with
      | some row => exact attempt_avoids (by simp)
      | none =>
          refine (attempt_avoids ?_).bind fun generation _ => executes.bind fun _ _ =>
            executes.bind fun _ _ => .pure _
          simp

theorem commitDecision_avoids {submission : DecisionSubmission}
    {context : ApprovalContext} {verified : VerifiedAssertion} {signer : BrokerSigningKey}
    {nowUtc : Int64} {entropy : Entropy} (hId : requestId.bytes? ≠ none) :
    Avoids .corruptState
      (commitDecision requestId submission context verified signer nowUtc entropy) := by
  refine ensureIdentity_avoids.bind fun _ _ => (query_avoids ?_).bind fun row _ =>
    (attempt_avoids ?_).bind fun _ _ => (query_avoids ?_).bind fun current _ => ?_
  · simp [requestRow]
  · simp
  · simp [credentialGeneration]
  split
  · exact appendTransition_avoids.bind fun _ _ =>
      (createReceipt_avoids hId).bind fun _ _ => .pure _
  · refine appendTransition_avoids.bind fun _ _ => executes.bind fun _ _ => ?_
    split
    · exact (createReceipt_avoids hId).bind fun _ _ => .pure _
    · exact .pure _

/-- Why `prepare_for_decision` finds the state corrupt, other than the id. -/
theorem prepareForDecision_eq_corrupt {deviceIdBytes : ByteArr 16} {plan : FrozenPlan}
    {context : PendingRequestContext} {signer : BrokerSigningKey} {before : Database}
    (hId : requestId.bytes? ≠ none)
    (h : prepareForDecision deviceIdBytes requestId plan context signer before =
      .error .corruptState) :
    context.expiresUtc < context.createdUtc ∨
      ∃ row, before.request? requestId = some row ∧
        (row.packageName ≠ plan.packageName.asStr ∨
          validPackageName row.packageName = false) := by
  by_contra hOther
  push Not at hOther
  obtain ⟨hTimes, hRows⟩ := hOther
  obtain ⟨_, _, hOk, h⟩ := (attempt_avoids (by simpa using hTimes)).later h
  obtain ⟨-, rfl⟩ := attempt_eq_ok_iff.mp hOk
  obtain ⟨_, _, hOk, h⟩ := ensureIdentity_avoids.later h
  obtain ⟨-, rfl⟩ := ensureIdentity_eq_ok_iff.mp hOk
  obtain ⟨row, _, hOk, h⟩ := (query_avoids
    (by simp [planningRow, bind_eq_error_iff])).later h
  obtain ⟨hPlanning, rfl⟩ := query_eq_ok_iff.mp hOk
  simp only [planningRow, bind_eq_ok_iff, orFault_eq_ok_iff, rejectIf_eq_ok_iff,
    pure_eq_ok, Except.ok.injEq] at hPlanning
  obtain ⟨_, hRow, _, -, rfl⟩ := hPlanning
  obtain ⟨hPackage, hName⟩ := hRows _ hRow
  revert h
  refine ((attempt_avoids ?_).bind fun _ _ => (query_avoids ?_).bind fun identity _ =>
    (attempt_avoids ?_).bind fun request _ => (attempt_avoids ?_).bind fun digest _ =>
    (attempt_avoids ?_).bind fun payload _ => (attempt_avoids ?_).bind fun cose _ =>
    (attempt_avoids ?_).bind fun encoded _ => appendTransition_avoids.bind fun _ _ =>
    (attempt_avoids ?_).bind fun deadline _ => updateRequest_avoids.bind fun _ _ =>
    .pure _) _
  · simpa using hPackage
  · simp [identityRow]
  · exact fun hFrozen => hName (frozenRequest_eq_corrupt hId hFrozen)
  · simp
  · simp
  · simp [signEnvelope]
  · simp
  · simp

theorem read_eq_corrupt {decision : DecisionAttempt} {deviceIdBytes : ByteArr 16}
    {request : Database} {snapshots : Snapshots}
    (hRequest : snapshots.request = request.toTables)
    (hId : decision.requestId.bytes? ≠ none)
    (h : decision.read deviceIdBytes snapshots = .error .corruptState) :
    (∃ row, snapshots.request.request? decision.requestId = some row ∧
        row.requestExpiresUtc = none) ∨
      ∃ row, snapshots.deadline.request? decision.requestId = some row ∧
        row.deadlineMonoNs = none := by
  rcases bind_eq_error_iff.mp h with hContext | ⟨context, -, h⟩
  · left
    rw [hRequest] at hContext ⊢
    simp only [DecisionAttempt.context, bind_eq_error_iff, rejectIf_eq_error_iff,
      reduceCtorEq, and_false, or_false, pure_eq_ok, exists_false] at hContext
    exact approvalContext_eq_corrupt hId hContext
  rcases bind_eq_error_iff.mp h with hExpired | ⟨expired, -, h⟩
  · right
    unfold DecisionAttempt.isExpired at hExpired
    split at hExpired
    · cases hExpired
    · exact deadlineElapsed_eq_corrupt hExpired
  · exfalso
    split at h
    · cases h
    rcases bind_eq_error_iff.mp h with hGeneration | ⟨generation, -, h⟩
    · simp [credentialGeneration] at hGeneration
    split at h
    · cases h
    · simp [bind_eq_error_iff, pinnedCredentials_ne_corrupt] at h

theorem expireAll_avoids {signer : BrokerSigningKey} {nowUtc : Int64}
    {requestIds : List String} {entropy : Nat → Entropy}
    (h : ∀ text ∈ requestIds, ∃ id : PublicId, id.asStr = text ∧ id.bytes? ≠ none) :
    Avoids .corruptState (expireAll signer nowUtc requestIds entropy) := by
  induction requestIds generalizing entropy with
  | nil => exact .pure _
  | cons text rest ih =>
      obtain ⟨hFirst, hRest⟩ := List.forall_mem_cons.mp h
      obtain ⟨id, hText, hBytes⟩ := hFirst
      have hParse : PublicId.parse text = .ok id := PublicId.parse_eq_ok_iff.mpr hText
      refine (attempt_avoids (by simp [hParse])).bind fun parsed hParsed =>
        appendTransition_avoids.bind fun _ _ => (createReceipt_avoids ?_).bind fun _ _ =>
        (ih hRest).bind fun _ _ => .pure _
      obtain ⟨_, _, hParsed⟩ := hParsed
      rw [attempt_eq_ok_iff, mapError_eq_ok_iff, hParse, Except.ok.injEq] at hParsed
      exact hParsed.1 ▸ hBytes

theorem startBoot_eq_corrupt {bootEpoch : UInt64} {signer : BrokerSigningKey}
    {nowUtc : Int64} {entropy : Nat → Entropy} {before : Database}
    (h : startBoot bootEpoch signer nowUtc entropy before = .error .corruptState) :
    ∃ epoch, toI64? bootEpoch.toNat = some epoch ∧
      ∃ text ∈ workToExpire epoch before.toTables,
        ∀ id : PublicId, id.asStr = text → id.bytes? = none := by
  obtain ⟨epoch, _, hOk, h⟩ := (attempt_avoids (by simp)).later h
  obtain ⟨hEpoch, rfl⟩ := attempt_eq_ok_iff.mp hOk
  refine ⟨epoch, orFault_eq_ok_iff.mp hEpoch, ?_⟩
  obtain ⟨previous, _, hOk, h⟩ := queryTotal_avoids.later h
  obtain ⟨-, rfl⟩ := query_eq_ok_iff.mp hOk
  by_contra hOther
  push Not at hOther
  revert h
  split
  · nofun
  intro h
  obtain ⟨_, _, hOk, h⟩ := ensureIdentity_avoids.later h
  obtain ⟨-, rfl⟩ := ensureIdentity_eq_ok_iff.mp hOk
  obtain ⟨requestIds, _, hOk, h⟩ := queryTotal_avoids.later h
  obtain ⟨hIds, rfl⟩ := query_eq_ok_iff.mp hOk
  rw [Except.ok.injEq] at hIds
  exact ((expireAll_avoids (hIds ▸ hOther)).bind fun _ _ =>
    executes.bind fun _ _ => .pure _) _ h

theorem reconcileRecovery_eq_corrupt {succeeded : Bool} {evidence : Bytes}
    {signer : BrokerSigningKey} {nowUtc : Int64} {entropy : Entropy} {before : Database}
    (hId : requestId.bytes? ≠ none)
    (h : reconcileRecovery requestId succeeded evidence signer nowUtc entropy before =
      .error .corruptState) : evidence = [] ∨ 65536 < evidence.length := by
  by_contra hOther
  revert h
  refine ((attempt_avoids ?_).bind fun _ _ => ensureIdentity_avoids.bind fun _ _ =>
    appendTransition_avoids.bind fun _ _ => updateRequest_avoids.bind fun _ _ =>
    createReceipt_avoids hId) _
  simpa using hOther

theorem applyWebauthnSubmission_eq_corrupt {deviceIdBytes : ByteArr 16}
    {request : Database} {snapshots : Snapshots} {decision : DecisionAttempt}
    {signer : BrokerSigningKey} {entropy : Entropy} {before : Database}
    (hRequest : snapshots.request = request.toTables)
    (hId : decision.requestId.bytes? ≠ none)
    (h : applyWebauthnSubmission deviceIdBytes snapshots decision signer entropy before =
      .error .corruptState) :
    (∃ row, snapshots.request.request? decision.requestId = some row ∧
        row.requestExpiresUtc = none) ∨
      ∃ row, snapshots.deadline.request? decision.requestId = some row ∧
        row.deadlineMonoNs = none := by
  by_contra hOther
  revert h
  refine ((attempt_avoids fun hRead => hOther (read_eq_corrupt hRequest hId hRead)).bind
    fun reading _ => ?_) _
  cases reading with
  | close next => exact (transitionTerminal_avoids hId).bind fun _ _ => .pure _
  | decided context verified => exact commitDecision_avoids hId

end Parts
end Broker
end RootPermit
