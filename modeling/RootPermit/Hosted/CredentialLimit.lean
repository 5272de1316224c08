import RootPermit.Hosted.Changes

/-!
# Credentials of a device

A device has at most five credentials that are not quarantined, and a locked device has
none.  Both are invariants of the runtime under every change, so they hold in every order
of turns, and no decision on a request of a locked device is ever forwarded.
-/

namespace RootPermit
namespace Hosted
namespace M3

open Foundation

/-- Every device keeps to the limit, and a locked one has no usable credential. -/
structure M3Runtime.Enrolled (runtime : M3Runtime) : Prop where
  limit : ∀ devicePublicId, (runtime.usable devicePublicId).length ≤ 5
  locked : ∀ devicePublicId device, runtime.device? devicePublicId = some device →
    device.enrollmentState = .approvalLocked → runtime.usable devicePublicId = []

section Changes

variable {runtime : M3Runtime}

/-- A new credential counts for its device, unless it is quarantined. -/
theorem usable_enroll {credential : Credential}
    (hNew : runtime.credential? credential.publicId = none) (devicePublicId : String) :
    { runtime with
      credentials := Table.put Credential.publicId credential
        runtime.credentials }.usable devicePublicId =
      runtime.usable devicePublicId ++ [credential].filter fun credential =>
        decide (credential.devicePublicId = devicePublicId) &&
          !credential.quarantined := by
  rw [M3Runtime.usable, Table.put_of_absent hNew, List.filter_append]
  rfl

/-- A quarantine makes no credential usable. -/
theorem usable_quarantine (runtime : M3Runtime) (credentialId devicePublicId : String) :
    (((quarantine runtime credentialId).usable devicePublicId).map
        Credential.publicId).Sublist
      ((runtime.usable devicePublicId).map Credential.publicId) := by
  have hId : ∀ credential : Credential,
      { credential with quarantined := true }.publicId = credential.publicId :=
    fun _ => rfl
  refine Table.map_filter_update_sublist hId ?_
  intro credential _ _ hUsable
  simp at hUsable

theorem Change.enrolled {Arrives : Arrival → Prop} {before after : M3Runtime}
    (h : Change Arrives before after) (hBefore : before.Enrolled) : after.Enrolled := by
  cases h with
  | activate device hActive =>
      refine ⟨hBefore.limit, fun devicePublicId found hFound hLocked => ?_⟩
      rw [M3Runtime.device?, Table.lookup_put] at hFound
      split at hFound
      · rw [← Option.some.inj hFound, hActive] at hLocked
        cases hLocked
      · exact hBefore.locked devicePublicId found hFound hLocked
  | lock lockedId hNone =>
      refine ⟨hBefore.limit, fun devicePublicId found hFound hLocked => ?_⟩
      rw [device?_lock, Option.map_eq_some_iff] at hFound
      obtain ⟨device, hDevice, hChange⟩ := hFound
      by_cases hSame : device.publicId = lockedId
      · have hId : device.publicId = devicePublicId := Table.column_of_lookup hDevice
        rw [← hId, hSame]
        exact hNone
      · rw [if_neg (by simpa using hSame)] at hChange
        rw [← hChange] at hLocked
        exact hBefore.locked devicePublicId device hDevice hLocked
  | enroll credential device hNew hDevice hActive hLimit =>
      refine ⟨fun devicePublicId => ?_, fun devicePublicId found hFound hLocked => ?_⟩
      · rw [usable_enroll hNew, List.length_append]
        by_cases hSame : credential.devicePublicId = devicePublicId
        · subst hSame
          have hOne := List.length_filter_le (fun other : Credential =>
            decide (other.devicePublicId = credential.devicePublicId) &&
              !other.quarantined) [credential]
          rw [List.length_singleton] at hOne
          omega
        · have hOld := hBefore.limit devicePublicId
          simpa [hSame] using hOld
      · have hOther : credential.devicePublicId ≠ devicePublicId := by
          rintro rfl
          have hSame := Option.some.inj (hDevice.symm.trans hFound)
          rw [← hSame, hActive] at hLocked
          cases hLocked
        have hOld := hBefore.locked devicePublicId found hFound hLocked
        rw [usable_enroll hNew, hOld]
        simp [hOther]
  | quarantine credentialId =>
      refine ⟨fun devicePublicId => ?_, fun devicePublicId found hFound hLocked => ?_⟩
      · have hFewer := (usable_quarantine before credentialId devicePublicId).length_le
        rw [List.length_map, List.length_map] at hFewer
        exact hFewer.trans (hBefore.limit devicePublicId)
      · have hNone := hBefore.locked devicePublicId found hFound hLocked
        have hFewer := usable_quarantine before credentialId devicePublicId
        rw [hNone, List.map_nil, List.sublist_nil, List.map_eq_nil_iff] at hFewer
        exact hFewer
  | _ => exact ⟨hBefore.limit, hBefore.locked⟩

end Changes

variable [Cryptography]

theorem run_enrolled (officialOrigin : String) (turns : List Turn) :
    (run Service.turn (Service.fresh officialOrigin) turns).shared.Enrolled := by
  refine (run_changes (Service.fresh officialOrigin) turns).preserve Change.enrolled ?_
  exact ⟨fun _ => Nat.zero_le _, fun _ _ hDevice _ => nomatch hDevice⟩

/-- In every reachable state a device has at most five usable credentials and none when
it is locked, and no turn forwards a decision for a locked device. -/
theorem credential_limit (officialOrigin : String) (turns : List Turn) :
    let service := run Service.turn (Service.fresh officialOrigin) turns
    service.shared.Enrolled ∧
      ∀ session requestId input surroundings turn,
        Forwards session requestId input surroundings service turn →
          ∃ record, service.shared.request? requestId = some record ∧
            ∀ device, service.shared.device? record.devicePublicId = some device →
              device.enrollmentState = .active := by
  intro service
  have hEnrolled : service.shared.Enrolled := run_enrolled officialOrigin turns
  refine ⟨hEnrolled, fun session requestId input surroundings turn hForwards => ?_⟩
  obtain ⟨⟨record, credential, hRecord, -, -, -, hCredential, -, hDevice, hUsable⟩, -⟩ :=
    hForwards.cases (run_admitted officialOrigin turns)
  refine ⟨record, hRecord, fun device hFound => ?_⟩
  -- The credential of the decision is usable for the device.
  have hMem : credential ∈ service.shared.usable record.devicePublicId := by
    rw [M3Runtime.usable, List.mem_filter]
    refine ⟨Table.mem_of_lookup hCredential, ?_⟩
    simp [hDevice, hUsable]
  cases hState : device.enrollmentState with
  | active => rfl
  | approvalLocked =>
      rw [hEnrolled.locked record.devicePublicId device hFound hState] at hMem
      cases hMem

end M3
end Hosted
end RootPermit
