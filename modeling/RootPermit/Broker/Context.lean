import RootPermit.Broker.ActiveSlot
import RootPermit.Broker.Authenticity

/-!
# The approval context of a prepared request

`prepare_for_decision` signs a canonical request and writes its bindings into columns
of their own; `approval_context` puts them together again, from the row, from the
identity and from the handle.

* `prepareForDecision_signed` — what a preparation writes;
* `SignedRow.step` — no call changes a binding while the request stays pending;
* `context_rederives_request` — in every reachable store, the approval context of a
  prepared, pending request is the one of the request that was signed.
-/

namespace RootPermit
namespace Broker

open Foundation Protocol WebAuthn

/-! ### What a preparation binds -/

/-- The stored envelope carries this request. -/
def CarriesRequest (bytes : Bytes) (request : Request) : Prop :=
  ∃ cose, CoseSign1.decode bytes = .ok cose ∧
    Request.decode cose.payload = .ok request

/-- The columns of a pending row, the identity and the device id of the handle hold
the bindings of a request. -/
structure SignedRow [Cryptography] (requestId : PublicId) (row : RequestRow)
    (request : Request) (store : BrokerStore) : Prop where
  cose : ∃ bytes, row.requestCose = some bytes ∧ CarriesRequest bytes request
  requestId : requestId.bytes = .ok request.requestId
  deviceId : store.deviceIdBytes = request.deviceId
  identity : ∃ pinned, store.database.brokerIdentity = some pinned ∧
    pinned.deviceId ≠ none ∧ toU64? pinned.brokerEpoch.toInt = some request.brokerEpoch
  generation : toU64? row.generation.toInt = some request.generation
  nonce : row.requestNonce = some request.nonce.val
  expiresUtc : row.requestExpiresUtc = some request.expiresUtc
  digest : ∃ digest, row.requestDigest = some digest.val ∧
    request.digest = .ok digest
  requesterUid : toU64? row.requesterUid.toInt = some request.requesterUid
  packageName : request.operationInput.packageName = row.packageName

/-- The fields of the canonical request of a row. -/
theorem frozenRequest_eq_ok {deviceIdBytes : ByteArr 16} {requestId : PublicId}
    {row : RequestRow} {identity : IdentityRow} {plan : FrozenPlan}
    {context : PendingRequestContext} {request : Request}
    (h : frozenRequest deviceIdBytes requestId row identity plan context =
      .ok request) :
    requestId.bytes = .ok request.requestId ∧ deviceIdBytes = request.deviceId ∧
      toU64? identity.brokerEpoch.toInt = some request.brokerEpoch ∧
      toU64? row.generation.toInt = some request.generation ∧
      context.nonce = request.nonce ∧ context.expiresUtc = request.expiresUtc ∧
      toU64? row.requesterUid.toInt = some request.requesterUid ∧
      request.operationInput.packageName = row.packageName ∧
      request.planDigest = plan.planDigest ∧ request.frozenPlan = plan.toCbor ∧
      context.createdUtc = request.createdUtc := by
  simp only [frozenRequest, OperationInput.packageInstall, bind_eq_ok_iff,
    mapError_eq_ok_iff, orFault_eq_ok_iff, rejectIf_eq_ok_iff, pure_eq_ok,
    Except.ok.injEq] at h
  obtain ⟨id, hId, epoch, hEpoch, generation, hGeneration, uid, hUid, input,
    ⟨_, -, rfl⟩, rfl⟩ := h
  exact ⟨hId, rfl, hEpoch, hGeneration, rfl, rfl, hUid, rfl, rfl, rfl, rfl⟩

section Preparation

variable [Cryptography]

/-- The envelope of a signed request carries the request in normal form. -/
theorem carriesRequest_of_sign {signer : BrokerSigningKey} {request : Request}
    {payload bytes : Bytes} (hPayload : request.canonicalBytes = .ok payload)
    (hSign : signEnvelope signer payload COSE_CONTENT_TYPE_REQUEST .request =
      .ok bytes) : CarriesRequest bytes request.normal := by
  obtain ⟨cose, -, hSigned, hCose⟩ := signEnvelope_eq_ok hSign
  refine ⟨cose, hCose, ?_⟩
  rw [hSigned]
  exact Request.roundTrips.decode_of_canonicalBytes request payload hPayload

/-- The digest of a request is the one of its normal form. -/
theorem digest_normal {request : Request} {payload : Bytes}
    (hPayload : request.canonicalBytes = .ok payload) :
    request.normal.digest = request.digest := by
  have hDecode := Request.roundTrips.decode_of_canonicalBytes request payload hPayload
  have hNormal := Request.roundTrips.canonicalBytes_of_decode payload _ hDecode
  have hWire := digestWith_wireBytes .request Request.toCbor Request.validate
  exact (hWire _ payload hNormal).trans (hWire _ payload hPayload).symm

/-- A fake plan is bound to its own digest. -/
theorem planDigest_of_fake {packageName : PackageName} {manifestDigest : Digest}
    {actionCount : UInt32} {plan : FrozenPlan}
    (h : FrozenPlan.fake packageName manifestDigest actionCount = .ok plan) :
    digestCbor .aptPlan plan.toCbor = .ok plan.planDigest := by
  simp only [FrozenPlan.fake, bind_eq_ok_iff, mapError_eq_ok_iff, pure_eq_ok,
    Except.ok.injEq] at h
  obtain ⟨digest, hDigest, rfl⟩ := h
  exact hDigest

/-- The digest of a value is the one of its normal form. -/
theorem digestCbor_normalize {domain : Domain} {value : CborValue} {digest : Digest}
    (h : digestCbor domain value = .ok digest) :
    digestCbor domain (normalize value) = .ok digest := by
  obtain ⟨preimage, hPreimage, hDigest⟩ := digestCbor_eq_ok_iff.mp h
  obtain ⟨encoded, hEncoded, hShape⟩ := digestPreimage_eq_ok_iff.mp hPreimage
  have hNormal : encode (normalize value) = .ok encoded :=
    encode_of_decode (encode_eq_ok_iff_decode.mp hEncoded)
  exact digestCbor_eq_ok_iff.mpr
    ⟨preimage, digestPreimage_eq_ok_iff.mpr ⟨encoded, hNormal, hShape⟩, hDigest⟩

/-- What a successful preparation read and signed, and the row that it wrote. -/
theorem prepareForDecision_eq_ok {deviceIdBytes : ByteArr 16} {requestId : PublicId}
    {plan : FrozenPlan} {context : PendingRequestContext} {signer : BrokerSigningKey}
    {before after : Database} {result : Bytes}
    (h : prepareForDecision deviceIdBytes requestId plan context signer before =
      .ok (result, after)) :
    ∃ row identity request digest payload frozen deadline,
      before.request? requestId = some row ∧
      before.brokerIdentity = some identity ∧
      frozenRequest deviceIdBytes requestId row identity plan context =
        .ok request ∧
      request.digest = .ok digest ∧ request.canonicalBytes = .ok payload ∧
      signEnvelope signer payload COSE_CONTENT_TYPE_REQUEST .request = .ok result ∧
      after.request? requestId = some
        (bindRequest plan context digest result frozen deadline
          { row with state := .pending }) := by
  obtain ⟨row, identity, request, digest, payload, frozen, deadline, between, hRow,
    hIdentity, hRequest, hDigest, hPayload, hCose, hAppend, hUpdate⟩ :=
    prepareForDecision_runs h
  obtain ⟨moved, event, hMoved, -, -, hBetween⟩ := appendTransition_eq_ok hAppend
  -- The request is built from the very row that is moved.
  have hSame : moved = row := Option.some.inj (hMoved.symm.trans hRow)
  refine ⟨row, identity, request, digest, payload, frozen, deadline, hRow, hIdentity,
    hRequest, hDigest, hPayload, hCose, ?_⟩
  have hBind := bindRequest_keepsLifecycle plan context digest result frozen deadline
  have hKeepsId : ∀ row, (bindRequest plan context digest result frozen deadline
      row).requestId = row.requestId := fun row => (hBind.submission row).requestId
  have hAdvanced : (between.dossier requestId).row =
      some { row with state := .pending } := by
    rw [hBetween, Tables.dossier_advance hMoved, if_pos rfl, hSame]
  change (after.dossier requestId).row = _
  rw [updateRequest_eq_ok_iff.mp hUpdate, Tables.dossier_modifyRequest_self hKeepsId,
    hAdvanced]
  rfl

/-- A successful preparation leaves a pending row with the bindings of the request
that it signed. -/
theorem prepareForDecision_signed {store : BrokerStore} {after : Database}
    {requestId : PublicId} {plan : FrozenPlan} {context : PendingRequestContext}
    {signer : BrokerSigningKey} {result : Bytes}
    (hDevice : ∀ pinned, store.database.brokerIdentity = some pinned →
      pinned.deviceId ≠ none)
    (h : prepareForDecision store.deviceIdBytes requestId plan context signer
      store.database = .ok (result, after)) :
    ∃ row request, after.request? requestId = some row ∧ row.state = .pending ∧
      SignedRow requestId row request
        { database := after, deviceIdBytes := store.deviceIdBytes } ∧
      request.planDigest = plan.planDigest ∧
      request.frozenPlan = normalize plan.toCbor := by
  have hIdentity := (prepareForDecision_shared h).identity
  obtain ⟨row, identity, request, digest, payload, frozen, deadline, -, hPinned,
    hRequest, hDigest, hPayload, hCose, hNew⟩ := prepareForDecision_eq_ok h
  obtain ⟨hId, hDeviceId, hEpoch, hGeneration, hNonce, hExpires, hUid, hPackage,
    hPlanDigest, hPlan, -⟩ := frozenRequest_eq_ok hRequest
  refine ⟨_, request.normal, hNew, rfl, ?_, hPlanDigest, by rw [← hPlan]; rfl⟩
  exact {
    cose := ⟨result, rfl, carriesRequest_of_sign hPayload hCose⟩
    requestId := hId
    deviceId := hDeviceId
    identity := ⟨identity, hIdentity.trans hPinned, hDevice identity hPinned, hEpoch⟩
    generation := hGeneration
    nonce := by
      show some context.nonce.val = some request.nonce.val
      rw [hNonce]
    expiresUtc := congrArg some hExpires
    digest := ⟨digest, rfl, (digest_normal hPayload).trans hDigest⟩
    requesterUid := hUid
    packageName := hPackage }

end Preparation

/-! ### Further calls -/

/-- The handle carries the device id of the identity, and an identity has one. -/
structure Enrolled (store : BrokerStore) : Prop where
  handle : pinnedDeviceId store.database.toTables = .ok store.deviceIdBytes
  identity : ∀ pinned, store.database.brokerIdentity = some pinned →
    pinned.deviceId ≠ none

theorem Enrolled.empty : Enrolled BrokerStore.empty := by
  refine ⟨BrokerStore.empty_deviceIdBytes, ?_⟩
  intro pinned hPinned
  cases hPinned

section Further

variable [Cryptography] {requestId : PublicId} {row : RequestRow} {request : Request}

theorem Enrolled.step (store : BrokerStore) (call : Call) (h : Enrolled store) :
    Enrolled (store.step call) := by
  refine ⟨pinnedDeviceId_step store call h.handle, ?_⟩
  rcases store.step_cases call with hSame | hDone
  · rw [hSame]
    exact h.identity
  intro pinned hPinned
  by_cases hIdentity : ∃ signer entropy, call = .initializeIdentity signer entropy
  · obtain ⟨signer, entropy, rfl⟩ := hIdentity
    obtain ⟨new, hAfter, -, hDevice, -⟩ := initializeIdentity_eq_ok hDone
    rw [hAfter, Option.some.injEq] at hPinned
    rw [← hPinned, hDevice]
    exact Option.some_ne_none _
  · have hOther : ∀ signer entropy, call ≠ .initializeIdentity signer entropy :=
      fun signer entropy hSame => hIdentity ⟨signer, entropy, hSame⟩
    rw [(Call.shared hDone).sameIdentity hOther] at hPinned
    exact h.identity pinned hPinned

/-- The bindings outside the row do not change once an identity is pinned. -/
theorem SignedRow.step {store : BrokerStore} (hEnrolled : Enrolled store) (call : Call)
    (h : SignedRow requestId row request store) :
    SignedRow requestId row request (store.step call) := by
  obtain ⟨pinned, hPinned, hDevice, hEpoch⟩ := h.identity
  have hHandle : (store.step call).deviceIdBytes = store.deviceIdBytes := by
    apply deviceIdBytes_step store call hEnrolled.handle
    intro _
    rw [hPinned]
    exact hDevice
  refine { h with deviceId := hHandle.trans h.deviceId, identity := ?_ }
  rcases store.step_cases call with hSame | hDone
  · rw [hSame]
    exact h.identity
  · obtain ⟨kept, hKept, -, -, hSameEpoch, hSameDevice⟩ :=
      (Call.shared hDone).identity pinned hPinned
    obtain ⟨deviceId, hFound⟩ := Option.ne_none_iff_exists'.mp hDevice
    refine ⟨kept, hKept, ?_, by rw [hSameEpoch]; exact hEpoch⟩
    rw [hSameDevice deviceId hFound]
    exact Option.some_ne_none _

/-- The request has left the pending state, or its row is the one that was signed. -/
def SignedOrPast (requestId : PublicId) (row : RequestRow) (request : Request)
    (store : BrokerStore) : Prop :=
  ∃ current, store.database.request? requestId = some current ∧
    (RequestState.pending.rank < current.state.rank ∨
      (current = row ∧ SignedRow requestId row request store))

theorem SignedOrPast.step (hPending : row.state = .pending) (store : BrokerStore)
    (call : Call)
    (h : Enrolled store ∧ SignedOrPast requestId row request store) :
    Enrolled (store.step call) ∧
      SignedOrPast requestId row request (store.step call) := by
  refine ⟨h.1.step store call, ?_⟩
  obtain ⟨current, hCurrent, hOutcome⟩ := h.2
  rcases store.step_cases call with hSame | hDone
  · rw [hSame]
    exact h.2
  cases Call.effect hDone requestId with
  | kept hKept _ =>
      refine ⟨current, (congrArg Dossier.row hKept).trans hCurrent, ?_⟩
      rcases hOutcome with hPast | ⟨hRow, hSigned⟩
      · exact Or.inl hPast
      · exact Or.inr ⟨hRow, hSigned.step h.1 call⟩
  | created _ _ _ _ _ hAbsent _ =>
      rw [hCurrent] at hAbsent
      cases hAbsent
  | moved old new reason hMoved hDrives =>
      -- A move takes the request further, and so past the pending state.
      have hOld : current = old :=
        Option.some.inj (hCurrent.symm.trans hMoved.rowBefore)
      have hForward := hDrives.rank_lt
      refine ⟨new, hMoved.rowAfter, Or.inl ?_⟩
      rcases hOutcome with hPast | ⟨hRow, -⟩
      · rw [hOld] at hPast
        omega
      · rw [← hOld, hRow, hPending] at hForward
        exact hForward

end Further

/-- A successful preparation signs the row. -/
theorem signed_of_prepared [Cryptography] {store : BrokerStore}
    {requestId : PublicId} {plan : FrozenPlan} {pending : PendingRequestContext}
    {signer : BrokerSigningKey} (hEnrolled : Enrolled store)
    (h : ∃ next, store.call (.prepareForDecision requestId plan pending signer) =
      .ok next) :
    ∃ row request, row.state = .pending ∧
      (request.frozenPlan = normalize plan.toCbor ∧
        request.planDigest = plan.planDigest) ∧
      SignedOrPast requestId row request
        (store.step (.prepareForDecision requestId plan pending signer)) := by
  obtain ⟨next, hCall⟩ := h
  have hStep : store.step (.prepareForDecision requestId plan pending signer) =
      next := by
    rw [BrokerStore.step, hCall]
  simp only [BrokerStore.call, Call.transaction, map_eq_ok_iff, Prod.exists,
    run_bind_eq_ok_iff, run_pure_eq_ok_iff] at hCall
  obtain ⟨_, _, ⟨bytes, after, hPrepare, rfl, rfl⟩, rfl⟩ := hCall
  obtain ⟨row, request, hRow, hPending, hSigned, hDigest, hPlan⟩ :=
    prepareForDecision_signed hEnrolled.identity hPrepare
  refine ⟨row, request, hPending, ⟨hPlan, hDigest⟩, ?_⟩
  rw [hStep]
  exact ⟨row, hRow, Or.inr ⟨rfl, hSigned⟩⟩

/-! ### The context of a signed row -/

/-- The context names the bindings of a request, the decision and the relying
party. -/
structure ContextOf [Cryptography] (request : Request) (decision : Decision)
    (relyingParty : WebAuthnRelyingParty) (context : ApprovalContext) : Prop where
  requestId : context.requestId = request.requestId
  deviceId : context.deviceId = request.deviceId
  brokerEpoch : context.brokerEpoch = request.brokerEpoch
  generation : context.generation = request.generation
  nonce : context.nonce = request.nonce
  expiresUtc : context.expiresUtc = request.expiresUtc
  requestDigest : request.digest = .ok context.requestDigest
  decision : context.decision = decision
  rpId : context.rpId = relyingParty.rpId
  origin : context.origin = relyingParty.origin

theorem SignedRow.approvalContext [Cryptography] {requestId : PublicId}
    {row : RequestRow} {request : Request} {store : BrokerStore}
    (h : SignedRow requestId row request store)
    (hRow : store.database.request? requestId = some row)
    (hPending : row.state = .pending) (decision : Decision)
    (relyingParty : WebAuthnRelyingParty) :
    ∃ context, approvalContext store.deviceIdBytes requestId decision relyingParty
        store.database.toTables store.database.toTables = .ok context ∧
      ContextOf request decision relyingParty context := by
  obtain ⟨digest, hColumn, hDigest⟩ := h.digest
  obtain ⟨pinned, hPinned, -, hEpoch⟩ := h.identity
  refine ⟨{ requestId := request.requestId, deviceId := store.deviceIdBytes,
            brokerEpoch := request.brokerEpoch, requestDigest := digest,
            generation := request.generation, nonce := request.nonce,
            rpId := relyingParty.rpId, origin := relyingParty.origin, decision,
            expiresUtc := request.expiresUtc }, ?_, ?_⟩
  · simp only [Broker.approvalContext, requestRow, identityRow, bind_eq_ok_iff,
      orFault_eq_ok_iff, rejectIf_eq_ok_iff, pure_eq_ok, Except.ok.injEq]
    exact ⟨row, hRow, digest.val, hColumn, request.nonce.val, h.nonce, (),
      not_not.mpr hPending, pinned, hPinned, request.requestId, h.requestId,
      request.brokerEpoch, hEpoch, digest, ByteArr.ofBytes?_val digest,
      request.generation, h.generation, request.nonce,
      ByteArr.ofBytes?_val request.nonce, request.expiresUtc, h.expiresUtc, rfl⟩
  · exact ⟨rfl, h.deviceId, rfl, rfl, rfl, rfl, hDigest, rfl, rfl, rfl⟩

/-! ### The submission of a request -/

theorem toNat_of_uid {uid : RequesterUid} {value : UInt64}
    (h : toU64? uid.asDb.toInt = some value) : value.toNat = uid.asU32.toNat := by
  have hValue := toU64?_eq_some_iff.mp h
  rw [RequesterUid.toInt_asDb] at hValue
  omega

section Submission

variable [Cryptography]

/-- The call creates the request. -/
def Submits (requestId : PublicId) (submitted : SubmitPackageInstall)
    (store : BrokerStore) (call : Call) : Prop :=
  (∃ policy, call = .submit submitted policy) ∧ submitted.requestId = requestId ∧
    store.database.request? requestId = none ∧
    (store.step call).database.request? requestId ≠ none

/-- A request was submitted by some call, and its row still says what was
submitted. -/
theorem submitted_of_row {calls : List Call} {requestId : PublicId} {row : RequestRow}
    (h : (run BrokerStore.step BrokerStore.empty calls).database.request? requestId =
      some row) :
    ∃ submitted, Occurs BrokerStore.step BrokerStore.empty calls
        (Submits requestId submitted) ∧
      row.requesterUid = submitted.requesterUid.asDb ∧
      row.packageName = submitted.packageName.asStr := by
  have hAbsent : ¬ BrokerStore.empty.database.request? requestId ≠ none :=
    not_not.mpr rfl
  have hPresent : (run BrokerStore.step BrokerStore.empty calls).database.request?
      requestId ≠ none := by
    rw [h]
    exact Option.some_ne_none row
  obtain ⟨earlier, call, later, rfl, hBefore, hAfter⟩ :=
    occurs_turn (Q := fun store : BrokerStore =>
      store.database.request? requestId ≠ none) hAbsent hPresent
  rw [not_not] at hBefore
  rw [run_append, run_cons] at h
  have hKept := Kept.run requestId
    ((run BrokerStore.step BrokerStore.empty earlier).step call) later
  generalize hStore : run BrokerStore.step BrokerStore.empty earlier = store at *
  rcases store.step_cases call with hSame | hDone
  · rw [hSame] at hAfter
    exact absurd hBefore hAfter
  -- Only a submission makes a request appear.
  cases Call.effect hDone requestId with
  | kept hDossier _ =>
      exact absurd ((congrArg Dossier.row hDossier).trans hBefore) hAfter
  | created submitted policy generation hCall hRequest _ hCreated =>
      obtain ⟨new, hNew, hSame, -⟩ := hKept.row _ (congrArg Dossier.row hCreated)
      have hRow : row = new := Option.some.inj (h.symm.trans hNew)
      refine ⟨submitted, ⟨earlier, call, later, rfl, ?_⟩, ?_, ?_⟩
      · rw [hStore]
        exact ⟨⟨policy, hCall⟩, hRequest, hBefore, hAfter⟩
      · rw [hRow, hSame.requesterUid]
        rfl
      · rw [hRow, hSame.packageName]
        rfl
  | moved old new reason hMoved _ =>
      have hOld := hMoved.rowBefore
      rw [show (store.database.dossier requestId).row = none from hBefore] at hOld
      cases hOld

end Submission

/-! ### The context re-derives the request -/

/-- In every reachable store, the approval context of a pending request that was
prepared with a fake plan is the one of the signed request, and the signed request is
the one that was submitted, with the digest of its plan. -/
theorem context_rederives_request [Cryptography] (earlier later : List Call)
    (requestId : PublicId) (plan : FrozenPlan) (pending : PendingRequestContext)
    (signer : BrokerSigningKey) (packageName : PackageName) (manifestDigest : Digest)
    (actionCount : UInt32)
    (hPlan : FrozenPlan.fake packageName manifestDigest actionCount = .ok plan)
    (hPrepared : ∃ next, (run BrokerStore.step BrokerStore.empty earlier).call
      (.prepareForDecision requestId plan pending signer) = .ok next) :
    let calls := earlier ++ .prepareForDecision requestId plan pending signer :: later
    let store := run BrokerStore.step BrokerStore.empty calls
    requestState requestId store.database.toTables = some .pending →
    ∃ row bytes cose request, store.database.request? requestId = some row ∧
      row.requestCose = some bytes ∧ CoseSign1.decode bytes = .ok cose ∧
      Request.decode cose.payload = .ok request ∧
      (∀ decision relyingParty, ∃ context,
        approvalContext store.deviceIdBytes requestId decision relyingParty
          store.database.toTables store.database.toTables = .ok context ∧
        ContextOf request decision relyingParty context) ∧
      (∃ submitted, Occurs BrokerStore.step BrokerStore.empty calls
          (Submits requestId submitted) ∧
        request.requesterUid.toNat = submitted.requesterUid.asU32.toNat ∧
        request.operationInput.packageName = submitted.packageName.asStr) ∧
      digestCbor .aptPlan request.frozenPlan = .ok request.planDigest := by
  intro calls store hState
  have hEnrolled : Enrolled (run BrokerStore.step BrokerStore.empty earlier) :=
    run_invariant Enrolled.empty Enrolled.step earlier
  obtain ⟨row, signed, hPending, hFrozen, hSigned⟩ :=
    signed_of_prepared hEnrolled hPrepared
  -- A signed row stays as it is until the request leaves its pending state.
  have hLater : Enrolled store ∧ SignedOrPast requestId row signed store := by
    show Enrolled (run _ _ (earlier ++ _ :: later)) ∧ SignedOrPast _ _ _
      (run _ _ (earlier ++ _ :: later))
    rw [run_append, run_cons]
    exact run_invariant
      (I := fun store => Enrolled store ∧ SignedOrPast requestId row signed store)
      ⟨hEnrolled.step _ _, hSigned⟩ (SignedOrPast.step hPending) later
  obtain ⟨current, hCurrent, hNow⟩ := Option.map_eq_some_iff.mp hState
  obtain ⟨found, hFound, hOutcome⟩ := hLater.2
  have hSame : current = found := Option.some.inj (hCurrent.symm.trans hFound)
  -- The request is pending, so the row is still the signed one.
  rcases hOutcome with hPast | ⟨hRow, hBound⟩
  · rw [← hSame, hNow] at hPast
    exact absurd hPast (Nat.lt_irrefl _)
  · rw [hRow] at hFound
    obtain ⟨bytes, hBytes, cose, hCose, hDecode⟩ := hBound.cose
    obtain ⟨submitted, hSubmitted, hUid, hPackage⟩ := submitted_of_row hFound
    refine ⟨row, bytes, cose, signed, hFound, hBytes, hCose, hDecode,
      hBound.approvalContext hFound hPending, ⟨submitted, hSubmitted, ?_, ?_⟩, ?_⟩
    · have hStored := hBound.requesterUid
      rw [hUid] at hStored
      exact toNat_of_uid hStored
    · rw [hBound.packageName, hPackage]
    · rw [hFrozen.1, hFrozen.2]
      exact digestCbor_normalize (planDigest_of_fake hPlan)

/-- The calls before the preparation of the sample request. -/
def unpreparedRun : List Call :=
  [.initializeIdentity sampleSigner (some (ByteArr.fill 16 9)),
    .submit sampleRequest allowAll]

def samplePreparation (plan : FrozenPlan) : Call :=
  .prepareForDecision sampleRequest.requestId plan samplePendingContext sampleSigner

def preparationOutcome (plan : FrozenPlan) : Except BrokerError BrokerStore :=
  @BrokerStore.call keyedHashCryptography
    (run (@BrokerStore.step keyedHashCryptography) BrokerStore.empty unpreparedRun)
    (samplePreparation plan)

/-- The store after the preparation, opened again. -/
def preparedStore (plan : FrozenPlan) : BrokerStore :=
  run (@BrokerStore.step keyedHashCryptography) BrokerStore.empty
    (unpreparedRun ++ samplePreparation plan :: [.reopen])

/-- The context of the sample request after a fake plan. -/
theorem context_rederives_request_sample :
    ∃ plan, @FrozenPlan.fake keyedHashCryptography sampleRequest.packageName
        (ByteArr.fill 32 1) 1 = .ok plan ∧
      requestState sampleRequest.requestId (preparedStore plan).database.toTables =
        some .pending ∧
      ∃ request, ∀ decision relyingParty, ∃ context,
        approvalContext (preparedStore plan).deviceIdBytes sampleRequest.requestId
          decision relyingParty (preparedStore plan).database.toTables
          (preparedStore plan).database.toTables = .ok context ∧
        @ContextOf keyedHashCryptography request decision relyingParty context := by
  have hRuns : (@FrozenPlan.fake keyedHashCryptography sampleRequest.packageName
      (ByteArr.fill 32 1) 1).map (fun plan =>
        ((preparationOutcome plan).isOk,
          requestState sampleRequest.requestId
            (preparedStore plan).database.toTables)) =
      .ok (true, some .pending) := by
    decide +kernel
  obtain ⟨plan, hPlan, hOutcome⟩ := map_eq_ok_iff.mp hRuns
  obtain ⟨hOk, hState⟩ := Prod.mk.inj hOutcome
  refine ⟨plan, hPlan, hState, ?_⟩
  have hPrepared : ∃ next, preparationOutcome plan = .ok next := by
    generalize preparationOutcome plan = outcome at hOk
    cases outcome with
    | error fault => cases hOk
    | ok next => exact ⟨next, rfl⟩
  unfold preparationOutcome samplePreparation at hPrepared
  unfold preparedStore samplePreparation at hState ⊢
  obtain ⟨_, _, _, request, -, -, -, -, hContext, -⟩ :=
    @context_rederives_request keyedHashCryptography unpreparedRun
      [.reopen] sampleRequest.requestId plan samplePendingContext sampleSigner
      sampleRequest.packageName (ByteArr.fill 32 1) 1 hPlan hPrepared hState
  exact ⟨request, hContext⟩

end Broker
end RootPermit
