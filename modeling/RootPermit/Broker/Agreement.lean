import RootPermit.Broker.Context

/-!
# A receipt and the request that it closes

`prepare_for_decision` signs a request, and `create_receipt` a receipt when the request
is closed.  A receipt takes what it says about the request from the columns that the
preparation wrote, and these columns stay as they are.  Only the broker epoch has two
sources: a request takes it from the identity, a receipt from the metadata.

* `BindingKept` — what a transaction keeps of the columns, and whence the epoch of a new
  receipt comes;
* `receipt_describes_request` — in every reachable store a receipt agrees with its signed
  request in everything but the broker epoch;
* `receipts_agree_iff` — it agrees in the epoch too exactly when no signed request is
  closed under another boot epoch than zero.
-/

namespace RootPermit
namespace Broker

open Foundation Protocol WebAuthn

/-- The stored envelope carries this receipt. -/
def CarriesReceipt (bytes : Bytes) (receipt : Receipt) : Prop :=
  ∃ cose, CoseSign1.decode bytes = .ok cose ∧
    Receipt.decode cose.payload = .ok receipt

/-- The receipt is one of this request, whatever its broker epoch. -/
structure Describes [Cryptography] (receipt : Receipt) (request : Request) : Prop where
  requestId : receipt.requestId = request.requestId
  requestDigest : request.digest = .ok receipt.requestDigest
  planDigest : receipt.planDigest = request.planDigest
  createdUtc : receipt.createdUtc = request.createdUtc
  completedUtc : receipt.createdUtc ≤ receipt.completedUtc

/-- The receipt agrees with the request in all that both state. -/
structure Agrees [Cryptography] (receipt : Receipt) (request : Request) : Prop
    extends Describes receipt request where
  brokerEpoch : receipt.brokerEpoch = request.brokerEpoch

/-- Every receipt of a signed request agrees with the request. -/
def ReceiptsAgree [Cryptography] (store : BrokerStore) : Prop :=
  ∀ requestId row bytes made, store.database.request? requestId = some row →
    row.requestCose = some bytes → made ∈ store.database.receiptsOf requestId →
    ∃ request receipt, CarriesRequest bytes request ∧
      CarriesReceipt made.coseBytes receipt ∧ Agrees receipt request

/-- The call closes a request that was signed. -/
def ClosesSigned [Cryptography] (store : BrokerStore) (call : Call) : Prop :=
  ∃ requestId old new, store.database.request? requestId = some old ∧
    old.requestCose ≠ none ∧ old.state.isTerminal = false ∧
    (store.step call).database.request? requestId = some new ∧
    new.state.isTerminal = true

theorem CarriesRequest.unique {bytes : Bytes} {first second : Request}
    (h : CarriesRequest bytes first) (h' : CarriesRequest bytes second) :
    first = second := by
  obtain ⟨cose, hCose, hFirst⟩ := h
  obtain ⟨cose', hCose', hSecond⟩ := h'
  rw [hCose, Except.ok.injEq] at hCose'
  rw [← hCose', hFirst, Except.ok.injEq] at hSecond
  exact hSecond

theorem CarriesReceipt.unique {bytes : Bytes} {first second : Receipt}
    (h : CarriesReceipt bytes first) (h' : CarriesReceipt bytes second) :
    first = second := by
  obtain ⟨cose, hCose, hFirst⟩ := h
  obtain ⟨cose', hCose', hSecond⟩ := h'
  rw [hCose, Except.ok.injEq] at hCose'
  rw [← hCose', hFirst, Except.ok.injEq] at hSecond
  exact hSecond

/-! ### The columns that a receipt reads -/

/-- The columns that tie a row to its signed request. -/
structure SameBinding (old new : RequestRow) : Prop where
  requestCose : new.requestCose = old.requestCose
  requestDigest : new.requestDigest = old.requestDigest
  planDigest : new.planDigest = old.planDigest
  createdUtc : new.createdUtc = old.createdUtc

theorem SameBinding.refl (row : RequestRow) : SameBinding row row :=
  ⟨rfl, rfl, rfl, rfl⟩

theorem SameBinding.trans {first second third : RequestRow}
    (h : SameBinding first second) (h' : SameBinding second third) :
    SameBinding first third :=
  ⟨h'.requestCose.trans h.requestCose, h'.requestDigest.trans h.requestDigest,
    h'.planDigest.trans h.planDigest, h'.createdUtc.trans h.createdUtc⟩

section Columns

variable [Cryptography] {requestId other : PublicId} {metadata : MetadataRow}

/-- The columns of a row are those of this request, signed under the pinned epoch. -/
structure BoundRow (identity : Option IdentityRow) (requestId : PublicId)
    (row : RequestRow) (request : Request) : Prop where
  requestId : requestId.bytes = .ok request.requestId
  digest : ∃ digest, row.requestDigest = some digest.val ∧ request.digest = .ok digest
  planDigest : row.planDigest = some request.planDigest.val
  createdUtc : row.createdUtc = request.createdUtc
  epoch : ∃ pinned, identity = some pinned ∧
    toU64? pinned.brokerEpoch.toInt = some request.brokerEpoch

theorem BoundRow.sameBinding {identity : Option IdentityRow} {old new : RequestRow}
    {request : Request} (hSame : SameBinding old new)
    (h : BoundRow identity requestId old request) :
    BoundRow identity requestId new request := by
  obtain ⟨digest, hColumn, hDigest⟩ := h.digest
  exact ⟨h.requestId, ⟨digest, hSame.requestDigest.trans hColumn, hDigest⟩,
    hSame.planDigest.trans h.planDigest, hSame.createdUtc.trans h.createdUtc, h.epoch⟩

theorem BoundRow.mono {before after : Tables} {row : RequestRow} {request : Request}
    (hKept : IdentityKept before after)
    (h : BoundRow before.brokerIdentity requestId row request) :
    BoundRow after.brokerIdentity requestId row request := by
  obtain ⟨pinned, hPinned, hEpoch⟩ := h.epoch
  obtain ⟨kept, hAfter, -, -, hSame, -⟩ := hKept pinned hPinned
  exact { h with epoch := ⟨kept, hAfter, by rw [hSame]; exact hEpoch⟩ }

/-- A preparation binds the row to the request that it signs. -/
theorem prepareForDecision_bound {deviceIdBytes : ByteArr 16} {plan : FrozenPlan}
    {context : PendingRequestContext} {signer : BrokerSigningKey}
    {before after : Database} {result : Bytes}
    (h : prepareForDecision deviceIdBytes requestId plan context signer before =
      .ok (result, after)) :
    ∃ row request, after.request? requestId = some row ∧
      row.requestCose = some result ∧ CarriesRequest result request ∧
      BoundRow after.brokerIdentity requestId row request := by
  have hIdentity := (prepareForDecision_shared h).identity
  obtain ⟨row, identity, request, digest, payload, frozen, deadline, -, hPinned,
    hRequest, hDigest, hPayload, hCose, hNew⟩ := prepareForDecision_eq_ok h
  obtain ⟨hId, -, hEpoch, -, -, -, -, -, hPlan, -, hCreated⟩ :=
    frozenRequest_eq_ok hRequest
  refine ⟨_, request.normal, hNew, rfl, carriesRequest_of_sign hPayload hCose, ?_⟩
  exact {
    requestId := hId
    digest := ⟨digest, rfl, (digest_normal hPayload).trans hDigest⟩
    planDigest := congrArg (fun digest : Digest => some digest.val) hPlan.symm
    createdUtc := hCreated
    epoch := ⟨identity, hIdentity.trans hPinned, hEpoch⟩ }

omit [Cryptography] in
theorem digestColumn_val (digest : Digest) :
    digestColumn (some digest.val) = .ok digest := by
  rw [digestColumn, ByteArr.ofBytes?_val]
  rfl

/-- A receipt that was made from the columns of a bound row describes the request, and
states the boot epoch of the metadata. -/
theorem ReceiptMade.describes {signer : BrokerSigningKey} {state : RequestState}
    {nowUtc : Int64} {evidence : List CborValue} {row : RequestRow} {made : ReceiptRow}
    (h : ReceiptMade signer requestId state nowUtc evidence row metadata made) :
    ∃ receipt, CarriesReceipt made.coseBytes receipt ∧
      toU64? metadata.bootEpoch.toInt = some receipt.brokerEpoch ∧
      ∀ identity request, BoundRow identity requestId row request →
        Describes receipt request := by
  obtain ⟨receiptId, receipt, payload, cose, hReceipt, hPayload, -, hCose, hDecode⟩ :=
    h.decodes
  have hTimes : receipt.createdUtc ≤ receipt.completedUtc :=
    (Receipt.canonicalBytes_eq_ok_iff.mp hPayload).1.2
  simp only [receiptOf, bind_eq_ok_iff, orFault_eq_ok_iff, pure_eq_ok,
    Except.ok.injEq] at hReceipt
  obtain ⟨digest, hDigest, planDigest, hPlan, _, -, bytes, hId, epoch, hEpoch, rfl⟩ :=
    hReceipt
  refine ⟨_, ⟨cose, hCose, hDecode⟩, hEpoch, ?_⟩
  intro identity request hBound
  obtain ⟨signed, hColumn, hSigned⟩ := hBound.digest
  rw [hColumn, Option.getD_some, ByteArr.ofBytes?_val, Option.some.injEq] at hDigest
  rw [hBound.planDigest, digestColumn_val, Except.ok.injEq] at hPlan
  exact {
    requestId := by
      have hSame := hId.symm.trans hBound.requestId
      exact Except.ok.inj hSame
    requestDigest := by
      rw [hSigned, hDigest]
      rfl
    planDigest := hPlan.symm
    createdUtc := hBound.createdUtc
    completedUtc := hTimes }

/-! ### What a transaction keeps -/

/-- The receipt was made under this metadata. -/
def IssuedUnder (metadata : MetadataRow) (made : ReceiptRow) : Prop :=
  ∃ signer requestId state nowUtc evidence row,
    ReceiptMade signer requestId state nowUtc evidence row metadata made

/-- The row keeps its binding, and the new receipts are made under this metadata. -/
structure BindingKept (metadata : MetadataRow) (before after : Dossier) : Prop where
  row : ∀ new, after.row = some new → ∃ old, before.row = some old ∧ SameBinding old new
  receipts : ∀ made ∈ after.receipts, made ∈ before.receipts ∨ IssuedUnder metadata made

theorem BindingKept.refl (dossier : Dossier) : BindingKept metadata dossier dossier :=
  ⟨fun new hNew => ⟨new, hNew, SameBinding.refl new⟩, fun _ hMade => Or.inl hMade⟩

theorem BindingKept.trans {first second third : Dossier}
    (h : BindingKept metadata first second) (h' : BindingKept metadata second third) :
    BindingKept metadata first third := by
  constructor
  · intro new hNew
    obtain ⟨middle, hMiddle, hSame⟩ := h'.row new hNew
    obtain ⟨old, hOld, hEarlier⟩ := h.row middle hMiddle
    exact ⟨old, hOld, hEarlier.trans hSame⟩
  · intro made hMade
    rcases h'.receipts made hMade with hMiddle | hIssued
    · exact h.receipts made hMiddle
    · exact Or.inr hIssued

/-- A transition only sets the state. -/
theorem BindingKept.advance {tables : Tables} {next : RequestState}
    {event : LifecycleEvent} {row : RequestRow}
    (hRow : tables.request? requestId = some row) :
    BindingKept metadata (tables.dossier other)
      ((tables.advance requestId next event).dossier other) := by
  rw [Tables.dossier_advance hRow]
  by_cases hOther : other = requestId
  · rw [if_pos hOther, hOther]
    refine ⟨?_, fun _ hMade => Or.inl hMade⟩
    intro new hNew
    refine ⟨row, hRow, ?_⟩
    rw [← Option.some.inj hNew]
    exact ⟨rfl, rfl, rfl, rfl⟩
  · rw [if_neg hOther]
    exact BindingKept.refl _

variable {before between middle after : Database}

theorem appendTransition_bindingKept {expected : Option RequestState}
    {next : RequestState} {reason : TransitionReason} {done : Unit}
    (h : appendTransition requestId expected next reason before = .ok (done, after)) :
    BindingKept metadata (before.dossier other) (after.dossier other) := by
  obtain ⟨row, event, hRow, -, -, hAfter⟩ := appendTransition_eq_ok h
  rw [hAfter]
  exact BindingKept.advance hRow

/-- A change of other columns keeps the binding. -/
theorem updateRequest_bindingKept {change : RequestRow → RequestRow} {done : Unit}
    (h : updateRequest requestId change before = .ok (done, after))
    (hChange : ∀ row, SameBinding row (change row))
    (hKeepsId : ∀ row, (change row).requestId = row.requestId) :
    BindingKept metadata (before.dossier other) (after.dossier other) := by
  rw [updateRequest_eq_ok_iff.mp h]
  by_cases hOther : other = requestId
  · rw [hOther, Tables.dossier_modifyRequest_self hKeepsId]
    refine ⟨?_, fun _ hMade => Or.inl hMade⟩
    intro new hNew
    obtain ⟨old, hOld, rfl⟩ := Option.map_eq_some_iff.mp hNew
    exact ⟨old, hOld, hChange old⟩
  · rw [Tables.dossier_modifyRequest_of_ne hKeepsId hOther]
    exact BindingKept.refl _

/-- The receipt of a request is made under the metadata that the transaction finds. -/
theorem createReceipt_bindingKept {state : RequestState} {signer : BrokerSigningKey}
    {nowUtc : Int64} {evidence : List CborValue} {entropy : Entropy} {result : Bytes}
    (hMetadata : before.brokerMetadata = metadata)
    (h : createReceipt requestId state signer nowUtc evidence entropy before =
      .ok (result, after)) :
    BindingKept metadata (before.dossier other) (after.dossier other) := by
  obtain ⟨row, made, hRow, -, hMade, -, -, hAfter⟩ := createReceipt_eq_ok h
  rw [hMetadata] at hMade
  rw [hAfter, Tables.dossier_close hMade.requestId hRow]
  by_cases hOther : other = requestId
  · rw [if_pos hOther, hOther]
    constructor
    · intro new hNew
      refine ⟨row, hRow, ?_⟩
      rw [← Option.some.inj hNew]
      exact ⟨rfl, rfl, rfl, rfl⟩
    · intro found hFound
      rcases List.mem_append.mp hFound with hOld | hNew
      · exact Or.inl hOld
      · rw [List.mem_singleton.mp hNew]
        exact Or.inr ⟨signer, requestId, state, nowUtc, evidence, row, hMade⟩
  · rw [if_neg hOther]
    exact BindingKept.refl _

/-- A transition, a change of other columns and the receipt. -/
theorem closing_bindingKept {expected : Option RequestState} {next : RequestState}
    {reason : TransitionReason} {signer : BrokerSigningKey} {nowUtc : Int64}
    {evidence : List CborValue} {entropy : Entropy} {done : Unit} {result : Bytes}
    (hAppend : appendTransition requestId expected next reason before =
      .ok (done, between))
    (hShared : SharedKept between.toTables middle.toTables)
    (hMiddle : BindingKept before.brokerMetadata (between.dossier other)
      (middle.dossier other))
    (hReceipt : createReceipt requestId next signer nowUtc evidence entropy middle =
      .ok (result, after)) :
    BindingKept before.brokerMetadata (before.dossier other) (after.dossier other) := by
  have hMetadata : middle.brokerMetadata = before.brokerMetadata :=
    hShared.metadata.trans (appendTransition_shared hAppend).metadata
  exact ((appendTransition_bindingKept hAppend).trans hMiddle).trans
    (createReceipt_bindingKept hMetadata hReceipt)

theorem transitionNonterminal_bindingKept {expected next result : RequestState}
    (h : transitionNonterminal requestId expected next before = .ok (result, after)) :
    BindingKept before.brokerMetadata (before.dossier other) (after.dossier other) := by
  obtain ⟨-, row, event, hRow, -, -, hAfter⟩ := transitionNonterminal_eq_ok h
  rw [hAfter]
  exact BindingKept.advance hRow

theorem transitionTerminal_bindingKept {expected next : RequestState}
    {signer : BrokerSigningKey} {nowUtc : Int64} {entropy : Entropy} {result : Bytes}
    (h : transitionTerminal requestId expected next signer nowUtc entropy before =
      .ok (result, after)) :
    BindingKept before.brokerMetadata (before.dossier other) (after.dossier other) := by
  obtain ⟨-, -, between, hAppend, hReceipt⟩ := transitionTerminal_runs h
  exact closing_bindingKept hAppend (SharedKept.refl _) (BindingKept.refl _) hReceipt

theorem reconcileRecovery_bindingKept {succeeded : Bool} {evidence : Bytes}
    {signer : BrokerSigningKey} {nowUtc : Int64} {entropy : Entropy} {result : Bytes}
    (h : reconcileRecovery requestId succeeded evidence signer nowUtc entropy before =
      .ok (result, after)) :
    BindingKept before.brokerMetadata (before.dossier other) (after.dossier other) := by
  obtain ⟨-, -, between, middle, hAppend, hUpdate, hReceipt⟩ :=
    reconcileRecovery_runs h
  exact closing_bindingKept hAppend (updateRequest_shared hUpdate fun _ => rfl)
    (updateRequest_bindingKept hUpdate (fun _ => ⟨rfl, rfl, rfl, rfl⟩) fun _ => rfl)
    hReceipt

theorem commitDecision_bindingKept {submission : DecisionSubmission}
    {context : ApprovalContext} {verified : VerifiedAssertion}
    {signer : BrokerSigningKey} {nowUtc : Int64} {entropy : Entropy}
    {result : DecisionOutcome}
    (h : commitDecision requestId submission context verified signer nowUtc entropy
      before = .ok (result, after)) :
    BindingKept before.brokerMetadata (before.dossier other) (after.dossier other) := by
  have hRaised : ∀ {between middle : Database},
      raiseSignCount verified between = .ok ((), middle) →
      BindingKept before.brokerMetadata (between.dossier other)
        (middle.dossier other) := by
    intro between middle hRaise
    rw [dossier_raiseSignCount hRaise]
    exact BindingKept.refl _
  cases (commitDecision_runs h).2 with
  | stale generation between receipt _ _ hAppend hReceipt =>
      exact closing_bindingKept hAppend (SharedKept.refl _) (BindingKept.refl _)
        hReceipt
  | closed between middle receipt _ _ hAppend hRaise hReceipt =>
      exact closing_bindingKept hAppend (raiseSignCount_shared hRaise) (hRaised hRaise)
        hReceipt
  | opened between _ _ hAppend hRaise =>
      exact (appendTransition_bindingKept hAppend).trans (hRaised hRaise)

theorem applyWebauthnSubmission_bindingKept {deviceIdBytes : ByteArr 16}
    {snapshots : Snapshots} {decision : DecisionAttempt} {signer : BrokerSigningKey}
    {entropy : Entropy} {result : DecisionOutcome}
    (h : applyWebauthnSubmission deviceIdBytes snapshots decision signer entropy
      before = .ok (result, after)) :
    BindingKept before.brokerMetadata (before.dossier other) (after.dossier other) := by
  simp only [applyWebauthnSubmission, run_bind_eq_ok_iff, attempt_eq_ok_iff] at h
  obtain ⟨reading, _, ⟨-, rfl⟩, h⟩ := h
  cases reading with
  | close next =>
      simp only [run_bind_eq_ok_iff, run_pure_eq_ok_iff] at h
      obtain ⟨_, _, hTerminal, -, rfl⟩ := h
      exact transitionTerminal_bindingKept hTerminal
  | decided context verified => exact commitDecision_bindingKept h

/-- Each receipt of a boot is made under the metadata before the boot. -/
theorem expireAll_bindingKept {signer : BrokerSigningKey} {nowUtc : Int64}
    {requestIds : List String} {entropy : Nat → Entropy} {changed : Nat}
    (h : expireAll signer nowUtc requestIds entropy before = .ok (changed, after)) :
    BindingKept before.brokerMetadata (before.dossier other) (after.dossier other) := by
  induction requestIds generalizing before entropy changed with
  | nil =>
      rw [expireAll, run_pure_eq_ok_iff] at h
      obtain ⟨-, rfl⟩ := h
      exact BindingKept.refl _
  | cons text rest ih =>
      simp only [expireAll, run_bind_eq_ok_iff, attempt_eq_ok_iff, run_pure_eq_ok_iff]
        at h
      obtain ⟨requestId, _, ⟨-, rfl⟩, _, between, hAppend, _, closed, hReceipt, count, _,
        hRest, -, rfl⟩ := h
      have hMetadata : closed.brokerMetadata = before.brokerMetadata :=
        ((appendTransition_shared hAppend).trans
          (createReceipt_shared hReceipt)).metadata
      have hLater := ih hRest
      rw [hMetadata] at hLater
      exact (closing_bindingKept hAppend (SharedKept.refl _) (BindingKept.refl _)
        hReceipt).trans hLater

theorem startBoot_bindingKept {bootEpoch : UInt64} {signer : BrokerSigningKey}
    {nowUtc : Int64} {entropy : Nat → Entropy} {changed : Nat}
    (h : startBoot bootEpoch signer nowUtc entropy before = .ok (changed, after)) :
    BindingKept before.brokerMetadata (before.dossier other) (after.dossier other) := by
  obtain ⟨epoch, -, ⟨-, -, rfl⟩ | ⟨-, -, between, hExpire, hAfter⟩⟩ := startBoot_runs h
  · exact BindingKept.refl _
  · have hDossier : after.dossier other = between.dossier other := by
      rw [hAfter]
      rfl
    rw [hDossier]
    exact expireAll_bindingKept hExpire

/-- A call that moves a request keeps its binding, unless it prepares it. -/
theorem Call.bindingKept {call : Call} {deviceIdBytes result : ByteArr 16}
    {snapshots : Snapshots} {source target : RequestState} {reason : TransitionReason}
    (h : call.transaction deviceIdBytes snapshots before = .ok (result, after))
    (hDrives : Drives deviceIdBytes snapshots before.toTables requestId call source
      target reason) :
    BindingKept before.brokerMetadata (before.dossier requestId)
        (after.dossier requestId) ∨
      target = .pending ∧ ∃ row request bytes, after.request? requestId = some row ∧
        row.requestCose = some bytes ∧ CarriesRequest bytes request ∧
        BoundRow after.brokerIdentity requestId row request := by
  cases hDrives with
  | prepared plan context signer =>
      obtain ⟨bytes, h⟩ := ran_of_transaction h
      obtain ⟨row, request, hRow, hBytes, hBound⟩ := prepareForDecision_bound h
      exact Or.inr ⟨rfl, row, request, bytes, hRow, hBytes, hBound⟩
  | nonterminal =>
      obtain ⟨_, h⟩ := ran_of_transaction h
      exact Or.inl (transitionNonterminal_bindingKept h)
  | terminal =>
      obtain ⟨_, h⟩ := ran_of_transaction h
      exact Or.inl (transitionTerminal_bindingKept h)
  | reconciled =>
      obtain ⟨_, h⟩ := ran_of_transaction h
      exact Or.inl (reconcileRecovery_bindingKept h)
  | booted =>
      obtain ⟨_, h⟩ := ran_of_transaction h
      exact Or.inl (startBoot_bindingKept h)
  | lapsed =>
      obtain ⟨_, h⟩ := ran_of_transaction h
      exact Or.inl (applyWebauthnSubmission_bindingKept h)
  | decided =>
      obtain ⟨_, h⟩ := ran_of_transaction h
      exact Or.inl (applyWebauthnSubmission_bindingKept h)

theorem Call.bindingKept_of_closed {call : Call} {deviceIdBytes result : ByteArr 16}
    {snapshots : Snapshots} {source target : RequestState} {reason : TransitionReason}
    (h : call.transaction deviceIdBytes snapshots before = .ok (result, after))
    (hDrives : Drives deviceIdBytes snapshots before.toTables requestId call source
      target reason) (hClosed : target.isTerminal = true) :
    BindingKept before.brokerMetadata (before.dossier requestId)
      (after.dossier requestId) := by
  refine (Call.bindingKept h hDrives).resolve_right ?_
  rintro ⟨rfl, -⟩
  cases hClosed

theorem Moved.sameBinding {identity : Option IdentityRow} {reason : TransitionReason}
    {old new : RequestRow} {before after : Dossier}
    (hMoved : Moved identity requestId reason old new before after)
    (hKept : BindingKept metadata before after) : SameBinding old new := by
  obtain ⟨previous, hBefore, hSame⟩ := hKept.row new hMoved.rowAfter
  rw [hMoved.rowBefore, Option.some.injEq] at hBefore
  rw [hBefore]
  exact hSame

end Columns

/-! ### Every reachable store -/

/-- Every signed row is bound to its request, and the pinned epoch is zero. -/
structure Binds [Cryptography] (store : BrokerStore) : Prop where
  rows : ∀ requestId row bytes, store.database.request? requestId = some row →
    row.requestCose = some bytes → ∃ request, CarriesRequest bytes request ∧
      BoundRow store.database.brokerIdentity requestId row request
  epoch : ∀ pinned, store.database.brokerIdentity = some pinned →
    pinned.brokerEpoch = 0

section Reachable

variable [Cryptography] {store : BrokerStore} {call : Call} {requestId : PublicId}

theorem Binds.empty : Binds BrokerStore.empty := by
  constructor
  · intro requestId row bytes hRow
    cases hRow
  · intro pinned hPinned
    cases hPinned

/-- The epoch of the identity is the one that its first initialization wrote. -/
theorem brokerEpoch_step (store : BrokerStore) (call : Call)
    (h : ∀ pinned, store.database.brokerIdentity = some pinned →
      pinned.brokerEpoch = 0) :
    ∀ pinned, (store.step call).database.brokerIdentity = some pinned →
      pinned.brokerEpoch = 0 := by
  rcases store.step_cases call with hSame | hDone
  · rw [hSame]
    exact h
  intro pinned hPinned
  cases hBefore : store.database.brokerIdentity with
  | some old =>
      obtain ⟨kept, hKept, -, -, hEpoch, -⟩ := (Call.shared hDone).identity old hBefore
      rw [hPinned, Option.some.injEq] at hKept
      rw [hKept, hEpoch]
      exact h old hBefore
  | none =>
      by_cases hIdentity : ∃ signer entropy, call = .initializeIdentity signer entropy
      · obtain ⟨signer, entropy, rfl⟩ := hIdentity
        obtain ⟨new, hAfter, ⟨-, hFirst⟩, -⟩ := initializeIdentity_eq_ok hDone
        rw [hAfter, Option.some.injEq] at hPinned
        rw [← hPinned]
        exact hFirst hBefore
      · have hOther : ∀ signer entropy, call ≠ .initializeIdentity signer entropy :=
          fun signer entropy hSame => hIdentity ⟨signer, entropy, hSame⟩
        rw [(Call.shared hDone).sameIdentity hOther, hBefore] at hPinned
        cases hPinned

theorem Binds.step (store : BrokerStore) (call : Call) (h : Binds store) :
    Binds (store.step call) := by
  refine ⟨?_, brokerEpoch_step store call h.epoch⟩
  rcases store.step_cases call with hSame | hDone
  · rw [hSame]
    exact h.rows
  intro requestId row bytes hRow hBytes
  have hIdentity := (Call.shared hDone).identity
  cases Call.effect hDone requestId with
  | kept hKept _ =>
      have hBefore : store.database.request? requestId = some row :=
        (congrArg Dossier.row hKept).symm.trans hRow
      obtain ⟨request, hCarries, hBound⟩ := h.rows requestId row bytes hBefore hBytes
      exact ⟨request, hCarries, hBound.mono hIdentity⟩
  | created request policy generation _ _ _ hCreated =>
      have hNew : row = newRequest _ request generation :=
        Option.some.inj (hRow.symm.trans (congrArg Dossier.row hCreated))
      rw [hNew] at hBytes
      cases hBytes
  | moved old new reason hMoved hDrives =>
      rcases Call.bindingKept hDone hDrives with
        hKept | ⟨-, bound, request, signed, hNew, hSigned, hCarries, hBound⟩
      · obtain ⟨previous, hBefore, hSame⟩ := hKept.row row hRow
        obtain ⟨request, hCarries, hBound⟩ := h.rows requestId previous bytes hBefore
          (hSame.requestCose.symm.trans hBytes)
        exact ⟨request, hCarries, (hBound.sameBinding hSame).mono hIdentity⟩
      · rw [hRow, Option.some.injEq] at hNew
        rw [← hNew, hBytes, Option.some.injEq] at hSigned
        exact ⟨request, hSigned ▸ hCarries, hNew ▸ hBound⟩

theorem Binds.of_run (calls : List Call) :
    Binds (run BrokerStore.step BrokerStore.empty calls) :=
  run_invariant Binds.empty Binds.step calls

/-- A request is signed under epoch zero. -/
theorem Binds.brokerEpoch {row : RequestRow} {request : Request} (h : Binds store)
    (hBound : BoundRow store.database.brokerIdentity requestId row request) :
    request.brokerEpoch = 0 := by
  obtain ⟨pinned, hPinned, hEpoch⟩ := hBound.epoch
  rw [h.epoch pinned hPinned] at hEpoch
  exact (Option.some.inj hEpoch).symm

/-- Closing a request moves it. -/
theorem ClosesSigned.moved (h : ClosesSigned store call) :
    ∃ requestId old new bytes reason, old.requestCose = some bytes ∧
      new.state.isTerminal = true ∧
      call.transaction store.deviceIdBytes (Snapshots.at store.database.toTables)
        store.database =
          .ok ((store.step call).deviceIdBytes, (store.step call).database) ∧
      Moved store.database.brokerIdentity requestId reason old new
        (store.database.dossier requestId)
        ((store.step call).database.dossier requestId) ∧
      Drives store.deviceIdBytes (Snapshots.at store.database.toTables)
        store.database.toTables requestId call old.state new.state reason := by
  obtain ⟨requestId, old, new, hOld, hSigned, hOpen, hNew, hClosed⟩ := h
  obtain ⟨bytes, hBytes⟩ := Option.ne_none_iff_exists'.mp hSigned
  rcases store.step_cases call with hSame | hDone
  · rw [hSame, hOld, Option.some.injEq] at hNew
    rw [hNew, hClosed] at hOpen
    cases hOpen
  cases Call.effect hDone requestId with
  | kept hKept _ =>
      have hRow := (congrArg Dossier.row hKept).symm.trans hNew
      rw [show (store.database.dossier requestId).row = some old from hOld,
        Option.some.injEq] at hRow
      rw [hRow, hClosed] at hOpen
      cases hOpen
  | created _ _ _ _ _ hAbsent _ =>
      rw [hOld] at hAbsent
      cases hAbsent
  | moved before after reason hMoved hDrives =>
      have hBefore : before = old := Option.some.inj (hMoved.rowBefore.symm.trans hOld)
      have hAfter : after = new := Option.some.inj (hMoved.rowAfter.symm.trans hNew)
      rw [hBefore, hAfter] at hMoved hDrives
      exact ⟨requestId, old, new, bytes, reason, hBytes, hClosed, hDone, hMoved,
        hDrives⟩

/-- The receipt of a signed request that is closed describes the request, and states
the boot epoch before the call. -/
theorem Moved.receipt_describes {old new : RequestRow} {reason : TransitionReason}
    {bytes : Bytes} (h : Binds store)
    (hDone : call.transaction store.deviceIdBytes
      (Snapshots.at store.database.toTables) store.database =
        .ok ((store.step call).deviceIdBytes, (store.step call).database))
    (hMoved : Moved store.database.brokerIdentity requestId reason old new
      (store.database.dossier requestId)
      ((store.step call).database.dossier requestId))
    (hDrives : Drives store.deviceIdBytes (Snapshots.at store.database.toTables)
      store.database.toTables requestId call old.state new.state reason)
    (hClosed : new.state.isTerminal = true) (hBytes : old.requestCose = some bytes) :
    ∃ made request receipt,
      (store.step call).database.receiptsOf requestId = [made] ∧
      CarriesRequest bytes request ∧ CarriesReceipt made.coseBytes receipt ∧
      Describes receipt request ∧ request.brokerEpoch = 0 ∧
      toU64? store.database.brokerMetadata.bootEpoch.toInt =
        some receipt.brokerEpoch := by
  have hKept := Call.bindingKept_of_closed hDone hDrives hClosed
  obtain ⟨request, hCarries, hBound⟩ := h.rows requestId old bytes hMoved.rowBefore
    hBytes
  obtain ⟨made, hReceipted, hNone, hOnly, -, -⟩ := hMoved.closes hClosed
  obtain ⟨-, signer, nowUtc, evidence, metadata, -, -, hMade⟩ := hReceipted
  obtain ⟨receipt, hCarriesReceipt, -, hDescribes⟩ := hMade.describes
  -- The receipt is new, so it was made under the metadata before the call.
  have hIssued : IssuedUnder store.database.brokerMetadata made := by
    refine (hKept.receipts made (hOnly ▸ List.mem_singleton_self made)).resolve_left ?_
    rw [hNone]
    exact List.not_mem_nil
  obtain ⟨_, _, _, _, _, _, hMadeNow⟩ := hIssued
  obtain ⟨same, hCarriesSame, hEpoch, -⟩ := hMadeNow.describes
  rw [hCarriesSame.unique hCarriesReceipt] at hEpoch
  exact ⟨made, request, receipt, hOnly, hCarries, hCarriesReceipt,
    hDescribes _ request (hBound.sameBinding (hMoved.sameBinding hKept)),
    h.brokerEpoch hBound, hEpoch⟩

/-- In every reachable store the receipt of a signed request describes the request. -/
theorem receipt_describes_request (calls : List Call) :
    let store := run BrokerStore.step BrokerStore.empty calls
    ∀ requestId row bytes made, store.database.request? requestId = some row →
      row.requestCose = some bytes → made ∈ store.database.receiptsOf requestId →
      ∃ request receipt, CarriesRequest bytes request ∧
        CarriesReceipt made.coseBytes receipt ∧ Describes receipt request := by
  intro store requestId row bytes made hRow hBytes hMade
  have hRequest := (BrokerStore.sound_of_run calls).requests requestId row hRow
  obtain ⟨request, hCarries, hBound⟩ :=
    (Binds.of_run calls).rows requestId row bytes hRow hBytes
  have hClosed : row.state.isTerminal = true := by
    by_contra hOpen
    obtain ⟨hReceipts, -⟩ := hRequest.opened (Bool.eq_false_iff.mpr hOpen)
    have hNone : store.database.receiptsOf requestId = [] := hReceipts
    rw [hNone] at hMade
    cases hMade
  obtain ⟨only, hReceipted, hReceipts, -⟩ := hRequest.closed hClosed
  have hOnly : store.database.receiptsOf requestId = [only] := hReceipts
  rw [hOnly, List.mem_singleton] at hMade
  obtain ⟨-, signer, nowUtc, evidence, metadata, -, -, hContents⟩ := hReceipted
  obtain ⟨receipt, hCarriesReceipt, -, hDescribes⟩ := hContents.describes
  exact ⟨request, receipt, hCarries, hMade ▸ hCarriesReceipt, hDescribes _ request hBound⟩

/-! ### The broker epoch -/

theorem ReceiptsAgree.empty : ReceiptsAgree BrokerStore.empty := by
  intro requestId row bytes made hRow
  cases hRow

/-- Receipts go on agreeing as long as no signed request is closed under another boot
epoch than zero. -/
theorem ReceiptsAgree.step (h : ReceiptsAgree store) (hBinds : Binds store)
    (hSound : store.Sound)
    (hCall : ClosesSigned store call → store.database.brokerMetadata.bootEpoch = 0) :
    ReceiptsAgree (store.step call) := by
  rcases store.step_cases call with hSame | hDone
  · rw [hSame]
    exact h
  intro requestId row bytes made hRow hBytes hMade
  change made ∈ ((store.step call).database.dossier requestId).receipts at hMade
  cases Call.effect hDone requestId with
  | kept hKept _ =>
      rw [hKept] at hMade
      exact h requestId row bytes made ((congrArg Dossier.row hKept).symm.trans hRow)
        hBytes hMade
  | created _ _ _ _ _ _ hCreated =>
      rw [hCreated] at hMade
      cases hMade
  | moved old new reason hMoved hDrives =>
      have hNew : row = new := Option.some.inj (hRow.symm.trans hMoved.rowAfter)
      subst hNew
      by_cases hClosed : row.state.isTerminal = true
      · have hSame :=
          hMoved.sameBinding (Call.bindingKept_of_closed hDone hDrives hClosed)
        have hSigned : old.requestCose = some bytes :=
          hSame.requestCose.symm.trans hBytes
        obtain ⟨only, request, receipt, hOnly, hCarries, hReceipt, hDescribes,
          hZero, hEpoch⟩ := hMoved.receipt_describes hBinds hDone hDrives hClosed hSigned
        have hFirst : store.database.brokerMetadata.bootEpoch = 0 := by
          refine hCall ⟨requestId, old, row, hMoved.rowBefore, ?_, hDrives.source_open,
            hRow, hClosed⟩
          rw [hSigned]
          exact Option.some_ne_none bytes
        rw [hFirst] at hEpoch
        have hMadeOnly : made = only := List.mem_singleton.mp (hOnly ▸ hMade)
        exact ⟨request, receipt, hCarries, hMadeOnly ▸ hReceipt, hDescribes,
          (Option.some.inj hEpoch).symm.trans hZero.symm⟩
      · -- An open request has no receipt.
        have hOpen := Bool.eq_false_iff.mpr hClosed
        rw [(hMoved.remainsOpen hOpen).2, ((hSound.requests requestId old
          hMoved.rowBefore).opened hDrives.source_open).1] at hMade
        cases hMade

/-- A signed request that is closed under another boot epoch gets a receipt that does
not agree with it. -/
theorem bootEpoch_of_receiptsAgree (hBinds : Binds store)
    (h : ReceiptsAgree (store.step call)) (hCloses : ClosesSigned store call) :
    store.database.brokerMetadata.bootEpoch = 0 := by
  obtain ⟨requestId, old, new, bytes, reason, hOld, hClosed, hDone, hMoved, hDrives⟩ :=
    hCloses.moved
  have hSame := hMoved.sameBinding (Call.bindingKept_of_closed hDone hDrives hClosed)
  have hBytes : new.requestCose = some bytes := hSame.requestCose.trans hOld
  obtain ⟨made, request, receipt, hOnly, hCarries, hReceipt, -, hZero, hEpoch⟩ :=
    hMoved.receipt_describes hBinds hDone hDrives hClosed hOld
  obtain ⟨request', receipt', hCarries', hReceipt', hAgrees⟩ := h requestId new bytes made
    hMoved.rowAfter hBytes (hOnly ▸ List.mem_singleton_self made)
  have hFirst : receipt.brokerEpoch = 0 := by
    rw [hReceipt.unique hReceipt', hAgrees.brokerEpoch, hCarries'.unique hCarries, hZero]
  rw [hFirst, toU64?_eq_some_iff] at hEpoch
  exact Int64.toInt_inj.mp hEpoch.symm

/-- During a run every receipt agrees with its signed request exactly when no signed
request is closed under another boot epoch than zero. -/
theorem receipts_agree_iff (calls : List Call) :
    (∀ earlier, earlier <+: calls →
      ReceiptsAgree (run BrokerStore.step BrokerStore.empty earlier)) ↔
    Throughout BrokerStore.step BrokerStore.empty calls fun store call =>
      ClosesSigned store call → store.database.brokerMetadata.bootEpoch = 0 := by
  constructor
  · intro h earlier call later hCalls
    have hPrefix : earlier ++ [call] <+: calls := by
      refine ⟨later, ?_⟩
      rw [hCalls, List.append_assoc, List.singleton_append]
    have hAgree := h (earlier ++ [call]) hPrefix
    rw [run_concat] at hAgree
    exact bootEpoch_of_receiptsAgree (Binds.of_run earlier) hAgree
  · intro h earlier hPrefix
    have hInvariant := run_invariant_of_throughout
      (I := fun store : BrokerStore =>
        ReceiptsAgree store ∧ Binds store ∧ store.Sound)
      ⟨ReceiptsAgree.empty, Binds.empty, BrokerStore.Sound.empty⟩
      (fun store call hStore hCall => ⟨hStore.1.step hStore.2.1 hStore.2.2 hCall,
        hStore.2.1.step store call, hStore.2.2.step store call⟩)
      (h.of_prefix hPrefix)
    exact hInvariant.1

end Reachable

/-- The sample request is prepared in the seventh boot. -/
def preparedInBootRun : List Call :=
  [.initializeIdentity sampleSigner (some (ByteArr.fill 16 9)),
    .startBoot 7 sampleSigner 5 fun _ => none,
    .submit sampleRequest allowAll,
    .prepareForDecision sampleRequest.requestId samplePlan samplePendingContext
      sampleSigner]

/-- Its cancellation. -/
def sampleCancellation : Call :=
  .transitionTerminal sampleRequest.requestId .pending .cancelled sampleSigner 20
    (some (ByteArr.fill 16 3))

/-- The receipt of the cancellation states the seventh boot, and the request was signed
under epoch zero. -/
theorem receipt_of_later_boot_disagrees :
    ¬ @ReceiptsAgree keyedHashCryptography
      (run (@BrokerStore.step keyedHashCryptography) BrokerStore.empty
        (preparedInBootRun ++ [sampleCancellation])) := by
  let _ : Cryptography := keyedHashCryptography
  have hFacts : ((run BrokerStore.step BrokerStore.empty
        preparedInBootRun).database.request? sampleRequest.requestId).map
          (fun row => (row.requestCose.isSome, row.state)) = some (true, .pending) ∧
      (run BrokerStore.step BrokerStore.empty
        preparedInBootRun).database.brokerMetadata.bootEpoch = 7 ∧
      ((run BrokerStore.step BrokerStore.empty
        (preparedInBootRun ++ [sampleCancellation])).database.request?
          sampleRequest.requestId).map RequestRow.state = some .cancelled := by
    decide +kernel
  rw [run_concat] at hFacts ⊢
  have hBinds := Binds.of_run preparedInBootRun
  generalize run BrokerStore.step BrokerStore.empty preparedInBootRun = store at *
  obtain ⟨hBefore, hSeven, hAfter⟩ := hFacts
  obtain ⟨old, hOld, hColumns⟩ := Option.map_eq_some_iff.mp hBefore
  obtain ⟨hSigned, hPending⟩ := Prod.mk.inj hColumns
  obtain ⟨new, hNew, hCancelled⟩ := Option.map_eq_some_iff.mp hAfter
  intro hAgree
  have hCloses : ClosesSigned store sampleCancellation := by
    refine ⟨sampleRequest.requestId, old, new, hOld, ?_, ?_, hNew, ?_⟩
    · exact Option.isSome_iff_ne_none.mp hSigned
    · rw [hPending]
      rfl
    · rw [hCancelled]
      rfl
  have hZero := bootEpoch_of_receiptsAgree hBinds hAgree hCloses
  rw [hSeven] at hZero
  cases hZero

end Broker
end RootPermit
