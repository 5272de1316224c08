import RootPermit.Broker.Effects

/-!
# What every call does

A new boot closes several requests in one transaction; each of them is moved once.
With that, every successful call is taken apart: `Call.effect` says what it does to
each request, and `Call.shared` what it does to the identity and to the active
credential generation.
-/

namespace RootPermit
namespace Broker

open Foundation Protocol WebAuthn

/-! ### What the requests share -/

/-- The ids of all requests, in table order. -/
def Tables.requestIds (tables : Tables) : List String :=
  tables.requests.map RequestRow.requestId

theorem Tables.requestIds_modifyRequest {tables : Tables} {requestId : PublicId}
    {change : RequestRow → RequestRow}
    (hChange : ∀ row, (change row).requestId = row.requestId) :
    (tables.modifyRequest requestId change).requestIds = tables.requestIds :=
  Table.map_update hChange

/-- No request is added, and the tables that are not about requests are kept. -/
structure SharedKept (before after : Tables) : Prop where
  identity : after.brokerIdentity = before.brokerIdentity
  metadata : after.brokerMetadata = before.brokerMetadata
  requestIds : after.requestIds = before.requestIds

theorem SharedKept.refl (tables : Tables) : SharedKept tables tables :=
  ⟨rfl, rfl, rfl⟩

theorem SharedKept.trans {first second third : Tables}
    (h : SharedKept first second) (h' : SharedKept second third) :
    SharedKept first third :=
  ⟨h'.identity.trans h.identity, h'.metadata.trans h.metadata,
    h'.requestIds.trans h.requestIds⟩

theorem Tables.advance_shared (tables : Tables) (requestId : PublicId)
    (next : RequestState) (event : LifecycleEvent) :
    SharedKept tables (tables.advance requestId next event) :=
  ⟨rfl, rfl, Tables.requestIds_modifyRequest (by simp)⟩

theorem updateRequest_shared {requestId : PublicId}
    {change : RequestRow → RequestRow} {before after : Database} {result : Unit}
    (h : updateRequest requestId change before = .ok (result, after))
    (hChange : ∀ row, (change row).requestId = row.requestId) :
    SharedKept before.toTables after.toTables := by
  rw [updateRequest_eq_ok_iff.mp h]
  exact ⟨rfl, rfl, Tables.requestIds_modifyRequest hChange⟩

theorem raiseSignCount_shared {verified : VerifiedAssertion}
    {before after : Database} {result : Unit}
    (h : raiseSignCount verified before = .ok (result, after)) :
    SharedKept before.toTables after.toTables := by
  rw [execute_eq_ok_iff.mp h]
  exact ⟨rfl, rfl, rfl⟩

/-- The work of another boot is planning, pending or approved. -/
theorem state_of_mem_workToExpire {before : Database} {requestId : PublicId}
    {epoch : Int64} {row : RequestRow}
    (hRow : before.request? requestId = some row)
    (hWork : requestId.asStr ∈ workToExpire epoch before.toTables) :
    row.state ∈ [RequestState.planning, .pending, .approved] := by
  obtain ⟨found, hFound, hId⟩ := List.mem_map.mp hWork
  obtain ⟨hMem, hState⟩ := List.mem_filter.mp hFound
  have hLookup : before.request? requestId = some found :=
    (Table.lookup_eq_some_iff before.constraints.requestKey).mpr ⟨hMem, hId⟩
  rw [hRow, Option.some.injEq] at hLookup
  rw [hLookup]
  exact (of_decide_eq_true hState).1

section Shared

variable [Cryptography] {before after : Database} {requestId : PublicId}

theorem appendTransition_shared {expected : Option RequestState}
    {next : RequestState} {reason : TransitionReason} {result : Unit}
    (h : appendTransition requestId expected next reason before =
      .ok (result, after)) :
    SharedKept before.toTables after.toTables := by
  obtain ⟨_, _, -, -, -, hAfter⟩ := appendTransition_eq_ok h
  rw [hAfter]
  exact Tables.advance_shared _ _ _ _

theorem createReceipt_shared {state : RequestState} {signer : BrokerSigningKey}
    {nowUtc : Int64} {evidence : List CborValue} {entropy : Entropy} {result : Bytes}
    (h : createReceipt requestId state signer nowUtc evidence entropy before =
      .ok (result, after)) :
    SharedKept before.toTables after.toTables := by
  obtain ⟨_, _, -, -, -, -, -, hAfter⟩ := createReceipt_eq_ok h
  rw [hAfter]
  exact ⟨rfl, rfl, Tables.requestIds_modifyRequest (by simp)⟩

theorem transitionNonterminal_shared {expected next result : RequestState}
    (h : transitionNonterminal requestId expected next before = .ok (result, after)) :
    SharedKept before.toTables after.toTables := by
  obtain ⟨-, _, _, -, -, -, hAfter⟩ := transitionNonterminal_eq_ok h
  rw [hAfter]
  exact Tables.advance_shared _ _ _ _

theorem prepareForDecision_shared {deviceIdBytes : ByteArr 16} {plan : FrozenPlan}
    {context : PendingRequestContext} {signer : BrokerSigningKey} {result : Bytes}
    (h : prepareForDecision deviceIdBytes requestId plan context signer before =
      .ok (result, after)) :
    SharedKept before.toTables after.toTables := by
  obtain ⟨_, _, _, _, _, _, _, between, -, -, -, -, -, -, hAppend, hUpdate⟩ :=
    prepareForDecision_runs h
  exact (appendTransition_shared hAppend).trans
    (updateRequest_shared hUpdate fun _ => rfl)

theorem transitionTerminal_shared {expected next : RequestState}
    {signer : BrokerSigningKey} {nowUtc : Int64} {entropy : Entropy} {result : Bytes}
    (h : transitionTerminal requestId expected next signer nowUtc entropy before =
      .ok (result, after)) :
    SharedKept before.toTables after.toTables := by
  obtain ⟨-, -, between, hAppend, hReceipt⟩ := transitionTerminal_runs h
  exact (appendTransition_shared hAppend).trans (createReceipt_shared hReceipt)

theorem reconcileRecovery_shared {succeeded : Bool} {evidence : Bytes}
    {signer : BrokerSigningKey} {nowUtc : Int64} {entropy : Entropy} {result : Bytes}
    (h : reconcileRecovery requestId succeeded evidence signer nowUtc entropy before =
      .ok (result, after)) :
    SharedKept before.toTables after.toTables := by
  obtain ⟨-, -, between, middle, hAppend, hUpdate, hReceipt⟩ :=
    reconcileRecovery_runs h
  exact ((appendTransition_shared hAppend).trans
    (updateRequest_shared hUpdate fun _ => rfl)).trans
      (createReceipt_shared hReceipt)

theorem commitDecision_shared {submission : DecisionSubmission}
    {context : ApprovalContext} {verified : VerifiedAssertion}
    {signer : BrokerSigningKey} {nowUtc : Int64} {entropy : Entropy}
    {result : DecisionOutcome}
    (h : commitDecision requestId submission context verified signer nowUtc entropy
      before = .ok (result, after)) :
    SharedKept before.toTables after.toTables := by
  cases (commitDecision_runs h).2 with
  | stale generation between receipt _ _ hAppend hReceipt =>
      exact (appendTransition_shared hAppend).trans (createReceipt_shared hReceipt)
  | closed between middle receipt _ _ hAppend hRaise hReceipt =>
      exact ((appendTransition_shared hAppend).trans
        (raiseSignCount_shared hRaise)).trans (createReceipt_shared hReceipt)
  | opened between _ _ hAppend hRaise =>
      exact (appendTransition_shared hAppend).trans (raiseSignCount_shared hRaise)

theorem applyWebauthnSubmission_shared {deviceIdBytes : ByteArr 16}
    {snapshots : Snapshots} {decision : DecisionAttempt} {signer : BrokerSigningKey}
    {entropy : Entropy} {result : DecisionOutcome}
    (h : applyWebauthnSubmission deviceIdBytes snapshots decision signer entropy
      before = .ok (result, after)) :
    SharedKept before.toTables after.toTables := by
  simp only [applyWebauthnSubmission, run_bind_eq_ok_iff, attempt_eq_ok_iff] at h
  obtain ⟨reading, _, ⟨-, rfl⟩, h⟩ := h
  cases reading with
  | close next =>
      simp only [run_bind_eq_ok_iff, run_pure_eq_ok_iff] at h
      obtain ⟨_, _, hTerminal, -, rfl⟩ := h
      exact transitionTerminal_shared hTerminal
  | decided context verified => exact commitDecision_shared h

/-! ### A new boot -/

/-- Each of the requests is closed as expired; the others are kept. -/
theorem expireAll_eq_ok {signer : BrokerSigningKey} {nowUtc : Int64}
    {requestIds : List String} {entropy : Nat → Entropy} {pinned : IdentityRow}
    {before after : Database} {changed : Nat}
    (hIdentity : before.brokerIdentity = some pinned)
    (hNames : pinned.Names signer) (hDistinct : requestIds.Nodup)
    (h : expireAll signer nowUtc requestIds entropy before = .ok (changed, after)) :
    changed = requestIds.length ∧ SharedKept before.toTables after.toTables ∧
      ∀ other : PublicId,
        (other.asStr ∉ requestIds → after.dossier other = before.dossier other) ∧
        (other.asStr ∈ requestIds → ∃ old new, new.state = .expired ∧
          Moved before.brokerIdentity other .expired old new (before.dossier other)
            (after.dossier other)) := by
  induction requestIds generalizing before entropy changed with
  | nil =>
      rw [expireAll, run_pure_eq_ok_iff] at h
      obtain ⟨rfl, rfl⟩ := h
      refine ⟨rfl, SharedKept.refl _, fun other => ⟨fun _ => rfl, ?_⟩⟩
      intro hMem
      cases hMem
  | cons text rest ih =>
      simp only [expireAll, run_bind_eq_ok_iff, attempt_eq_ok_iff,
        mapError_eq_ok_iff, PublicId.parse_eq_ok_iff, run_pure_eq_ok_iff] at h
      obtain ⟨requestId, _, ⟨rfl, rfl⟩, _, between, hAppend, _, closed, hReceipt,
        count, _, hRest, rfl, rfl⟩ := h
      obtain ⟨hFresh, hDistinct⟩ := List.nodup_cons.mp hDistinct
      obtain ⟨old, new, -, hNew, hMoved, hKept⟩ :=
        moved_of_receipt hIdentity hNames hAppend KeepsLifecycle.id (by simp)
          (fun _ _ => rfl) hReceipt rfl
      have hShared := (appendTransition_shared hAppend).trans
        (createReceipt_shared hReceipt)
      obtain ⟨hCount, hSharedRest, hEach⟩ :=
        ih (hShared.identity.trans hIdentity) hDistinct hRest
      refine ⟨by rw [hCount, List.length_cons], hShared.trans hSharedRest, ?_⟩
      intro other
      obtain ⟨hOutside, hInside⟩ := hEach other
      -- This request is expired now and left alone by the rest.
      by_cases hOther : other = requestId
      · subst hOther
        refine ⟨fun hMem => absurd List.mem_cons_self hMem, fun _ => ?_⟩
        rw [hOutside hFresh]
        exact ⟨old, new, hNew, hMoved⟩
      · have hText : other.asStr ≠ requestId.asStr :=
          fun hText => hOther (PublicId.ext_iff'.mpr hText)
        rw [hKept other hOther] at hOutside hInside
        rw [hShared.identity] at hInside
        refine ⟨fun hMem => hOutside fun hRest => ?_, fun hMem => hInside ?_⟩
        · exact hMem (List.mem_cons_of_mem _ hRest)
        · exact (List.mem_cons.mp hMem).resolve_left hText

/-- A boot of the stored epoch changes nothing; a boot of another epoch expires the
work of other boots and stores its epoch. -/
theorem startBoot_eq_ok {bootEpoch : UInt64} {signer : BrokerSigningKey}
    {nowUtc : Int64} {entropy : Nat → Entropy} {changed : Nat}
    (h : startBoot bootEpoch signer nowUtc entropy before = .ok (changed, after)) :
    ∃ epoch : Int64, epoch.toInt = bootEpoch.toNat ∧
      ((before.brokerMetadata.bootEpoch = epoch ∧ changed = 0 ∧ before = after) ∨
      (before.brokerMetadata.bootEpoch ≠ epoch ∧
        changed = (workToExpire epoch before.toTables).length ∧
        after.brokerIdentity = before.brokerIdentity ∧
        after.brokerMetadata = { before.brokerMetadata with bootEpoch := epoch } ∧
        after.requestIds = before.requestIds ∧
        ∀ other : PublicId,
          (other.asStr ∉ workToExpire epoch before.toTables →
            after.dossier other = before.dossier other) ∧
          (other.asStr ∈ workToExpire epoch before.toTables →
            ∃ old new, new.state = .expired ∧
              Moved before.brokerIdentity other .expired old new
                (before.dossier other) (after.dossier other)))) := by
  obtain ⟨epoch, hEpoch, hSame | ⟨hNew, ⟨pinned, hIdentity, hNames⟩, between, hExpire,
    hAfter⟩⟩ := startBoot_runs h
  · exact ⟨epoch, hEpoch, Or.inl hSame⟩
  · have hDistinct : (workToExpire epoch before.toTables).Nodup :=
      (List.filter_sublist.map _).nodup before.constraints.requestKey
    obtain ⟨hCount, hShared, hEach⟩ :=
      expireAll_eq_ok hIdentity hNames hDistinct hExpire
    have hDossier : ∀ other, after.dossier other = between.dossier other := by
      intro other
      rw [hAfter]
      rfl
    refine ⟨epoch, hEpoch, Or.inr ⟨hNew, hCount, ?_, ?_, ?_, ?_⟩⟩
    · rw [hAfter]
      exact hShared.identity
    · rw [hAfter]
      show { between.brokerMetadata with bootEpoch := epoch } = _
      rw [hShared.metadata]
    · rw [hAfter]
      exact hShared.requestIds
    · intro other
      rw [hDossier]
      exact hEach other

theorem startBoot_effect {deviceIdBytes : ByteArr 16} {snapshots : Snapshots}
    {bootEpoch : UInt64} {signer : BrokerSigningKey} {nowUtc : Int64}
    {entropy : Nat → Entropy} {changed : Nat} {other : PublicId}
    (h : startBoot bootEpoch signer nowUtc entropy before = .ok (changed, after)) :
    Effect deviceIdBytes snapshots (.startBoot bootEpoch signer nowUtc entropy) other
      before.toTables after.toTables := by
  obtain ⟨epoch, hEpoch, ⟨hSame, -, rfl⟩ | ⟨hNew, -, -, -, -, hEach⟩⟩ :=
    startBoot_eq_ok h
  · refine .kept rfl ?_
    rintro ⟨found, hFound, hOther, -⟩
    exact hOther (hSame.trans (Int64.toInt_inj.mp (hEpoch.trans hFound.symm)))
  · obtain ⟨hOutside, hInside⟩ := hEach other
    by_cases hWork : other.asStr ∈ workToExpire epoch before.toTables
    · obtain ⟨old, new, hExpired, hMoved⟩ := hInside hWork
      have hSource := state_of_mem_workToExpire hMoved.rowBefore hWork
      refine .moved old new .expired hMoved ?_
      rw [hExpired]
      exact .booted bootEpoch signer nowUtc entropy old.state hSource
        ⟨epoch, hEpoch, hNew, hWork⟩
    · refine .kept (hOutside hWork) ?_
      rintro ⟨found, hFound, -, hMem⟩
      rw [Int64.toInt_inj.mp (hFound.trans hEpoch.symm)] at hMem
      exact hWork hMem

end Shared

/-! ### Every call -/

/-- A call that returns the device id of its handle has run its operation. -/
theorem ran_of_transaction {α : Type} {operation : Tx α}
    {deviceIdBytes result : ByteArr 16} {before after : Database}
    (h : (operation >>= fun _ => pure deviceIdBytes) before = .ok (result, after)) :
    ∃ value, operation before = .ok (value, after) := by
  simp only [run_bind_eq_ok_iff, run_pure_eq_ok_iff] at h
  obtain ⟨value, _, hRun, -, rfl⟩ := h
  exact ⟨value, hRun⟩

/-- What a successful call does to a request. -/
theorem Call.effect [Cryptography] {call : Call} {deviceIdBytes : ByteArr 16}
    {snapshots : Snapshots} {before after : Database} {result : ByteArr 16}
    (h : call.transaction deviceIdBytes snapshots before = .ok (result, after))
    (requestId : PublicId) :
    Effect deviceIdBytes snapshots call requestId before.toTables after.toTables := by
  cases call with
  | reopen =>
      rw [Call.transaction, query_eq_ok_iff] at h
      obtain ⟨-, rfl⟩ := h
      exact .kept rfl not_false
  | initializeIdentity signer entropy =>
      obtain ⟨pinned, hAfter, -⟩ := initializeIdentity_eq_ok h
      refine effect_of_tables not_false ?_ ?_ ?_ <;> rw [hAfter]
  | replaceCredentials generation credentials =>
      obtain ⟨_, hReplace⟩ := ran_of_transaction h
      obtain ⟨-, active, -, hAfter⟩ := replaceCredentials_eq_ok hReplace
      refine effect_of_tables not_false ?_ ?_ ?_ <;> rw [hAfter]
  | startBoot bootEpoch signer nowUtc entropy =>
      obtain ⟨_, h⟩ := ran_of_transaction h
      exact startBoot_effect h
  | submit request policy =>
      obtain ⟨_, h⟩ := ran_of_transaction h
      exact submit_effect h
  | transitionNonterminal id expected next =>
      obtain ⟨_, h⟩ := ran_of_transaction h
      exact transitionNonterminal_effect h
  | prepareForDecision id plan context signer =>
      obtain ⟨_, h⟩ := ran_of_transaction h
      exact prepareForDecision_effect h
  | applyWebauthnSubmission decision signer entropy =>
      obtain ⟨_, h⟩ := ran_of_transaction h
      exact applyWebauthnSubmission_effect h
  | transitionTerminal id expected next signer nowUtc entropy =>
      obtain ⟨_, h⟩ := ran_of_transaction h
      exact transitionTerminal_effect h
        (.terminal expected next signer nowUtc entropy)
        fun hOther hNamed => hOther hNamed.symm
  | reconcileRecovery id succeeded evidence signer nowUtc entropy =>
      obtain ⟨_, h⟩ := ran_of_transaction h
      exact reconcileRecovery_effect h

/-- A pinned identity stays, with its key, its epoch and its device id. -/
def IdentityKept (before after : Tables) : Prop :=
  ∀ pinned, before.brokerIdentity = some pinned →
    ∃ kept, after.brokerIdentity = some kept ∧ kept.keyKid = pinned.keyKid ∧
      kept.publicKey = pinned.publicKey ∧ kept.brokerEpoch = pinned.brokerEpoch ∧
      ∀ deviceId, pinned.deviceId = some deviceId → kept.deviceId = some deviceId

/-- What a successful call does to the tables that the requests share. -/
structure SharedEffect (call : Call) (before after : Tables) : Prop where
  identity : IdentityKept before after
  sameIdentity : (∀ signer entropy, call ≠ .initializeIdentity signer entropy) →
    after.brokerIdentity = before.brokerIdentity
  generation :
    after.brokerMetadata.credentialGeneration =
      before.brokerMetadata.credentialGeneration ∨
    ∃ generation credentials, call = .replaceCredentials generation credentials ∧
      after.brokerMetadata.credentialGeneration.toInt = generation.toNat
  requestIds : ∀ text ∈ after.requestIds,
    text ∈ before.requestIds ∨ isPublicId text = true

theorem SharedKept.effect {call : Call} {before after : Tables}
    (h : SharedKept before after) : SharedEffect call before after := by
  refine ⟨?_, fun _ => h.identity, Or.inl (by rw [h.metadata]), ?_⟩
  · intro pinned hPinned
    exact ⟨pinned, h.identity.trans hPinned, rfl, rfl, rfl, fun _ hDevice => hDevice⟩
  · intro text hText
    exact Or.inl (h.requestIds ▸ hText)

theorem submit_shared [Cryptography] {call : Call} {deviceId : String}
    {request : SubmitPackageInstall} {policy : PackageInstallPolicy}
    {before after : Database} {outcome : SubmitOutcome}
    (h : submit deviceId request policy before = .ok (outcome, after)) :
    SharedEffect call before.toTables after.toTables := by
  rcases submit_eq_ok h with ⟨rfl, -⟩ | ⟨generation, -, -, -, -, hAfter⟩
  · exact (SharedKept.refl _).effect
  · rw [hAfter]
    refine ⟨?_, fun _ => rfl, Or.inl rfl, ?_⟩
    · intro pinned hPinned
      exact ⟨pinned, hPinned, rfl, rfl, rfl, fun _ hDevice => hDevice⟩
    · intro text hText
      unfold Tables.requestIds Tables.addEvent Tables.addRequest at hText
      rw [List.map_append, List.map_singleton, List.mem_append] at hText
      rcases hText with hOld | hNew
      · exact Or.inl hOld
      · rw [List.mem_singleton.mp hNew]
        exact Or.inr request.requestId.parsed

theorem Call.shared [Cryptography] {call : Call} {deviceIdBytes : ByteArr 16}
    {snapshots : Snapshots} {before after : Database} {result : ByteArr 16}
    (h : call.transaction deviceIdBytes snapshots before = .ok (result, after)) :
    SharedEffect call before.toTables after.toTables := by
  cases call with
  | reopen =>
      rw [Call.transaction, query_eq_ok_iff] at h
      obtain ⟨-, rfl⟩ := h
      exact (SharedKept.refl _).effect
  | initializeIdentity signer entropy =>
      obtain ⟨pinned, hAfter, -, hDevice, hOld⟩ := initializeIdentity_eq_ok h
      rw [hAfter]
      refine ⟨?_, fun hOther => absurd rfl (hOther signer entropy), Or.inl rfl,
        fun _ hText => Or.inl hText⟩
      intro old hBefore
      obtain ⟨hSame, hKept⟩ := hOld old hBefore
      refine ⟨pinned, rfl, by rw [hSame], by rw [hSame], by rw [hSame], ?_⟩
      intro deviceId hFound
      rw [hDevice, hKept deviceId hFound]
  | replaceCredentials generation credentials =>
      obtain ⟨_, hReplace⟩ := ran_of_transaction h
      obtain ⟨-, active, hActive, hAfter⟩ := replaceCredentials_eq_ok hReplace
      rw [hAfter]
      refine ⟨?_, fun _ => rfl, Or.inr ⟨generation, credentials, rfl, hActive⟩,
        fun _ hText => Or.inl hText⟩
      intro pinned hPinned
      exact ⟨pinned, hPinned, rfl, rfl, rfl, fun _ hDevice => hDevice⟩
  | startBoot bootEpoch signer nowUtc entropy =>
      obtain ⟨_, h⟩ := ran_of_transaction h
      obtain ⟨epoch, -, ⟨-, -, rfl⟩ | ⟨-, -, hIdentity, hMetadata, hIds, -⟩⟩ :=
        startBoot_eq_ok h
      · exact (SharedKept.refl _).effect
      · refine ⟨?_, fun _ => hIdentity, Or.inl (by rw [hMetadata]),
          fun _ hText => Or.inl (hIds ▸ hText)⟩
        intro pinned hPinned
        exact ⟨pinned, hIdentity.trans hPinned, rfl, rfl, rfl,
          fun _ hDevice => hDevice⟩
  | submit request policy =>
      obtain ⟨_, h⟩ := ran_of_transaction h
      exact submit_shared h
  | transitionNonterminal id expected next =>
      obtain ⟨_, h⟩ := ran_of_transaction h
      exact (transitionNonterminal_shared h).effect
  | prepareForDecision id plan context signer =>
      obtain ⟨_, h⟩ := ran_of_transaction h
      exact (prepareForDecision_shared h).effect
  | applyWebauthnSubmission decision signer entropy =>
      obtain ⟨_, h⟩ := ran_of_transaction h
      exact (applyWebauthnSubmission_shared h).effect
  | transitionTerminal id expected next signer nowUtc entropy =>
      obtain ⟨_, h⟩ := ran_of_transaction h
      exact (transitionTerminal_shared h).effect
  | reconcileRecovery id succeeded evidence signer nowUtc entropy =>
      obtain ⟨_, h⟩ := ran_of_transaction h
      exact (reconcileRecovery_shared h).effect

/-- A call of a store either fails and changes nothing, or is a transaction. -/
theorem BrokerStore.step_cases [Cryptography] (store : BrokerStore) (call : Call) :
    store.step call = store ∨
      call.transaction store.deviceIdBytes (Snapshots.at store.database.toTables)
        store.database =
        .ok ((store.step call).deviceIdBytes, (store.step call).database) := by
  unfold BrokerStore.step BrokerStore.call
  cases hOutcome : call.transaction store.deviceIdBytes
      (Snapshots.at store.database.toTables) store.database with
  | error fault => exact Or.inl rfl
  | ok outcome => exact Or.inr rfl

end Broker
end RootPermit
