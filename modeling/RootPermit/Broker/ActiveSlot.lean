import RootPermit.Broker.Soundness

/-!
# The active slot

The schema allows one active request per device id.  The device id of a store
changes once, when an identity is pinned.  If a request is active at that moment, it
keeps the old device id, and the new one has a free slot
(`two_active_requests`).  Otherwise every active request carries the device id of
the store, and there is at most one (`one_active_request`).
-/

namespace RootPermit
namespace Broker

open Foundation Protocol

/-- The call pins the first device id while a request is active. -/
def ResetsDevice (store : BrokerStore) (call : Call) : Prop :=
  (∃ signer entropy, call = .initializeIdentity signer entropy) ∧
    store.database.brokerIdentity.bind IdentityRow.deviceId = none ∧
    store.database.activeRequests ≠ []

/-- The handle carries the pinned device id, and so does every active request. -/
structure OneDevice (store : BrokerStore) : Prop where
  pinned : pinnedDeviceId store.database.toTables = .ok store.deviceIdBytes
  active : ∀ row ∈ store.database.activeRequests,
    row.deviceId = Base64Url.encodeText store.deviceIdBytes.val

/-- Active requests with one device id are one request. -/
theorem OneDevice.length_le_one {store : BrokerStore} (h : OneDevice store) :
    store.database.activeRequests.length ≤ 1 := by
  have hKey := store.database.constraints.requestsOneActivePerDevice
  have hActive := h.active
  cases hRows : store.database.activeRequests with
  | nil => exact Nat.zero_le 1
  | cons first rest =>
      cases rest with
      | nil => exact Nat.le_refl 1
      | cons second rest =>
          rw [hRows] at hKey hActive
          have hFirst := hActive first List.mem_cons_self
          have hSecond := hActive second (List.mem_cons_of_mem _ List.mem_cons_self)
          unfold Table.Keyed at hKey
          rw [List.map_cons, List.map_cons, hFirst, hSecond] at hKey
          exact absurd List.mem_cons_self (List.nodup_cons.mp hKey).1

section Device

variable [Cryptography] {call : Call} {deviceIdBytes result : ByteArr 16}
  {snapshots : Snapshots} {before after : Database}

/-- Only pinning an identity and reopening change the device id of a handle. -/
theorem Call.deviceId_kept
    (h : call.transaction deviceIdBytes snapshots before = .ok (result, after))
    (hIdentity : ∀ signer entropy, call ≠ .initializeIdentity signer entropy)
    (hReopen : call ≠ .reopen) : result = deviceIdBytes := by
  cases call with
  | reopen => exact absurd rfl hReopen
  | initializeIdentity signer entropy => exact absurd rfl (hIdentity signer entropy)
  | _ =>
      simp only [Call.transaction, run_bind_eq_ok_iff, run_pure_eq_ok_iff] at h
      obtain ⟨_, _, -, hResult, -⟩ := h
      exact hResult.symm

/-- An active request was active before, with the same device id, or it was just
created with the device id of the handle. -/
theorem active_origin (hSound : SoundDatabase after.toTables)
    (h : call.transaction deviceIdBytes snapshots before = .ok (result, after))
    {row : RequestRow} (hRow : row ∈ after.activeRequests) :
    (∃ old ∈ before.activeRequests, row.deviceId = old.deviceId) ∨
      ((∃ request policy, call = .submit request policy) ∧
        row.deviceId = Base64Url.encodeText deviceIdBytes.val) := by
  obtain ⟨hMem, hActive⟩ := List.mem_filter.mp hRow
  have hState : row.state ∈ ACTIVE_STATES := of_decide_eq_true hActive
  obtain ⟨requestId, -, hLookup⟩ := hSound.exists_publicId hMem
  cases Call.effect h requestId with
  | kept hKept =>
      have hBefore : before.request? requestId = some row :=
        (congrArg Dossier.row hKept).symm.trans hLookup
      refine Or.inl ⟨row, ?_, rfl⟩
      exact List.mem_filter.mpr ⟨Table.mem_of_lookup hBefore, hActive⟩
  | created request policy generation hCall _ _ hCreated =>
      have hNew : row = newRequest _ request generation :=
        Option.some.inj (hLookup.symm.trans (congrArg Dossier.row hCreated))
      refine Or.inr ⟨⟨request, policy, hCall⟩, ?_⟩
      rw [hNew]
      rfl
  | moved old new reason hMoved hDrives =>
      have hNew : row = new := Option.some.inj (hLookup.symm.trans hMoved.rowAfter)
      refine Or.inl ⟨old, ?_, ?_⟩
      · refine List.mem_filter.mpr ⟨Table.mem_of_lookup hMoved.rowBefore, ?_⟩
        exact decide_eq_true (mem_ACTIVE_STATES_iff.mpr hDrives.source_open)
      · rw [hNew]
        exact hMoved.submission.deviceId

/-- Pinning an identity makes its device id the one of the handle. -/
theorem pinnedDeviceId_initializeIdentity {signer : BrokerSigningKey}
    {entropy : Entropy}
    (h : initializeIdentity signer entropy before = .ok (result, after)) :
    pinnedDeviceId after.toTables = .ok result := by
  obtain ⟨pinned, hAfter, -, hDevice, -⟩ := initializeIdentity_eq_ok h
  rw [hAfter]
  simp [pinnedDeviceId, hDevice, orFault]

/-- A device id that was pinned stays. -/
theorem initializeIdentity_keeps {signer : BrokerSigningKey} {entropy : Entropy}
    (h : initializeIdentity signer entropy before = .ok (result, after))
    (hPinned : pinnedDeviceId before.toTables = .ok deviceIdBytes)
    (hDevice : before.brokerIdentity.bind IdentityRow.deviceId ≠ none) :
    result = deviceIdBytes := by
  obtain ⟨pinned, -, -, -, hOld⟩ := initializeIdentity_eq_ok h
  obtain ⟨bytes, hBytes⟩ := Option.ne_none_iff_exists'.mp hDevice
  obtain ⟨old, hIdentity, hFound⟩ := Option.bind_eq_some_iff.mp hBytes
  have hResult := (hOld old hIdentity).2 bytes hFound
  rw [pinnedDeviceId, hBytes, orFault_eq_ok_iff, ByteArr.ofBytes?_eq_some_iff]
    at hPinned
  exact Subtype.ext (hResult.symm.trans hPinned.symm)

end Device

section Slot

variable [Cryptography]

/-- The handle of a store always carries the pinned device id. -/
theorem pinnedDeviceId_step (store : BrokerStore) (call : Call)
    (h : pinnedDeviceId store.database.toTables = .ok store.deviceIdBytes) :
    pinnedDeviceId (store.step call).database.toTables =
      .ok (store.step call).deviceIdBytes := by
  rcases store.step_cases call with hSame | hDone
  · rw [hSame]
    exact h
  by_cases hIdentity : ∃ signer entropy, call = .initializeIdentity signer entropy
  · obtain ⟨signer, entropy, rfl⟩ := hIdentity
    exact pinnedDeviceId_initializeIdentity hDone
  · have hOther : ∀ signer entropy, call ≠ .initializeIdentity signer entropy :=
      fun signer entropy hSame => hIdentity ⟨signer, entropy, hSame⟩
    have hKept : pinnedDeviceId (store.step call).database.toTables =
        .ok store.deviceIdBytes := by
      rw [pinnedDeviceId, (Call.shared hDone).sameIdentity hOther]
      exact h
    by_cases hReopen : call = .reopen
    · subst hReopen
      have hRead := (query_eq_ok_iff.mp hDone).1
      rw [hKept, Except.ok.inj (hRead.symm.trans h)]
    · rw [hKept, Call.deviceId_kept hDone hOther hReopen]

/-- The device id of a handle changes only when an identity gets its first one. -/
theorem deviceIdBytes_step (store : BrokerStore) (call : Call)
    (h : pinnedDeviceId store.database.toTables = .ok store.deviceIdBytes)
    (hFirst : (∃ signer entropy, call = .initializeIdentity signer entropy) →
      store.database.brokerIdentity.bind IdentityRow.deviceId ≠ none) :
    (store.step call).deviceIdBytes = store.deviceIdBytes := by
  rcases store.step_cases call with hSame | hDone
  · rw [hSame]
  by_cases hIdentity : ∃ signer entropy, call = .initializeIdentity signer entropy
  · have hDevice := hFirst hIdentity
    obtain ⟨signer, entropy, rfl⟩ := hIdentity
    exact initializeIdentity_keeps hDone h hDevice
  · have hOther : ∀ signer entropy, call ≠ .initializeIdentity signer entropy :=
      fun signer entropy hSame => hIdentity ⟨signer, entropy, hSame⟩
    have hKept := pinnedDeviceId_step store call h
    rw [pinnedDeviceId, (Call.shared hDone).sameIdentity hOther] at hKept
    exact Except.ok.inj (hKept.symm.trans h)

theorem OneDevice.step (store : BrokerStore) (call : Call)
    (h : store.Sound ∧ OneDevice store) (hCall : ¬ ResetsDevice store call) :
    (store.step call).Sound ∧ OneDevice (store.step call) := by
  have hSound := BrokerStore.Sound.step store call h.1
  refine ⟨hSound, pinnedDeviceId_step store call h.2.pinned, ?_⟩
  rcases store.step_cases call with hSame | hDone
  · rw [hSame]
    exact h.2.active
  intro row hRow
  rcases active_origin hSound hDone hRow with ⟨old, hOld, hDevice⟩ | ⟨hSubmit, hDevice⟩
  · -- A request was active, so the call pins no first device id.
    have hHandle := deviceIdBytes_step store call h.2.pinned
      fun hIdentity hNone => hCall ⟨hIdentity, hNone, List.ne_nil_of_mem hOld⟩
    rw [hHandle, hDevice]
    exact h.2.active old hOld
  · obtain ⟨request, policy, rfl⟩ := hSubmit
    rw [hDevice, deviceIdBytes_step store _ h.2.pinned fun hIdentity => by
      obtain ⟨_, _, hSame⟩ := hIdentity
      cases hSame]

/-- In every run that pins no first device id while a request is active, at most one
request is active at any time. -/
theorem one_active_request {calls : List Call}
    (hCalls : Throughout BrokerStore.step BrokerStore.empty calls
      fun store call => ¬ ResetsDevice store call) :
    ∀ earlier, earlier <+: calls →
      (run BrokerStore.step BrokerStore.empty
        earlier).database.activeRequests.length ≤ 1 := by
  intro earlier hPrefix
  have hEmpty : OneDevice BrokerStore.empty := by
    refine ⟨BrokerStore.empty_deviceIdBytes, ?_⟩
    intro row hRow
    cases hRow
  have hRun := run_invariant_of_throughout
    (I := fun store : BrokerStore => store.Sound ∧ OneDevice store)
    ⟨BrokerStore.Sound.empty, hEmpty⟩ OneDevice.step (hCalls.of_prefix hPrefix)
  exact hRun.2.length_le_one

end Slot

/-- The only request of the sample run is active once it is submitted. -/
theorem one_active_request_sample :
    ∃ row, (run (@BrokerStore.step keyedHashCryptography) BrokerStore.empty
      [.initializeIdentity sampleSigner (some (ByteArr.fill 16 9)),
        .submit sampleRequest allowAll]).database.activeRequests = [row] := by
  have hActive : (run (@BrokerStore.step keyedHashCryptography) BrokerStore.empty
      [.initializeIdentity sampleSigner (some (ByteArr.fill 16 9)),
        .submit sampleRequest allowAll]).database.activeRequests ≠ [] := by
    decide +kernel
  have hCalls : Throughout (@BrokerStore.step keyedHashCryptography)
      BrokerStore.empty [.initializeIdentity sampleSigner (some (ByteArr.fill 16 9)),
        .submit sampleRequest allowAll]
      fun store call => ¬ ResetsDevice store call := by
    intro earlier call later hSplit
    cases earlier with
    | nil =>
        -- The identity is pinned on the empty database.
        rintro ⟨-, -, hSome⟩
        exact hSome rfl
    | cons first earlier =>
        rintro ⟨⟨signer, entropy, rfl⟩, -⟩
        have hMem : Call.initializeIdentity signer entropy ∈
            [Call.submit sampleRequest allowAll] := by
          rw [(List.cons.inj hSplit).2]
          exact List.mem_append_right _ List.mem_cons_self
        simp at hMem
  have hLength := @one_active_request keyedHashCryptography _ hCalls _
    List.prefix_rfl
  exact List.length_eq_one_iff.mp
    (Nat.le_antisymm hLength (List.length_pos_iff.mpr hActive))

/-- A request by another user. -/
def otherRequest : SubmitPackageInstall where
  requestId := ⟨"AQEBAQEBAQEBAQEBAQEBAQ", by decide +kernel⟩
  requesterUid := ⟨1001⟩
  operationKey := sampleRequest.operationKey
  packageName := sampleRequest.packageName
  generation := 0

/-- A request submitted before the identity is pinned does not hold the slot of the
device id that is pinned. -/
theorem two_active_requests :
    ¬ (run (@BrokerStore.step keyedHashCryptography) BrokerStore.empty
      [.submit sampleRequest allowAll,
        .initializeIdentity sampleSigner (some (ByteArr.fill 16 9)),
        .submit otherRequest allowAll]).database.activeRequests.length ≤ 1 := by
  decide +kernel

end Broker
end RootPermit
