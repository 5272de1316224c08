import RootPermit.Hosted.Turns

/-!
# Tenants and their devices

A credential or a request is stored only when the device that it names belongs to its
tenant.  The activation of a pairing, however, stores its device whatever device of
whichever tenant has been stored under the same identifier.

* `Update.consistent` — all other updates keep the tenants of credentials, requests and
  devices consistent;
* `tenantsSeparated_iff` — in a run tenants stay separated exactly when no completed
  pairing takes over a device that a credential or a request of another tenant names;
* `device_taken_over` — a run in which this happens.
-/

namespace RootPermit
namespace Hosted
namespace M3

open Foundation

/-! ### Consistent tenants -/

/-- Every credential and every request names a device of its tenant. -/
structure TenantConsistent (runtime : M3Runtime) : Prop where
  credentials : ∀ credential ∈ runtime.credentials,
    runtime.HasDevice credential.devicePublicId credential.tenantId
  requests : ∀ record ∈ runtime.requests,
    runtime.HasDevice record.devicePublicId record.tenantId

/-- A credential or a request names the device. -/
def M3Runtime.Names (runtime : M3Runtime) (devicePublicId : String) : Prop :=
  (∃ credential ∈ runtime.credentials, credential.devicePublicId = devicePublicId) ∨
    ∃ record ∈ runtime.requests, record.devicePublicId = devicePublicId

/-- A locked device has a credential. -/
def LockedNamed (runtime : M3Runtime) : Prop :=
  ∀ publicId device, runtime.device? publicId = some device →
    device.enrollmentState = .approvalLocked →
    ∃ credential ∈ runtime.credentials, credential.devicePublicId = publicId

theorem TenantConsistent.tenant_eq {runtime : M3Runtime} (h : TenantConsistent runtime)
    {credential : Credential} (hCredential : credential ∈ runtime.credentials)
    {device : Device}
    (hDevice : runtime.device? credential.devicePublicId = some device) :
    device.tenantId = credential.tenantId := by
  obtain ⟨found, hFound, hTenant⟩ := h.credentials credential hCredential
  rw [hDevice, Option.some.injEq] at hFound
  rw [hFound]
  exact hTenant

/-! ### Updates -/

section Updates

variable {tenant : Option String} {before after : M3Runtime}

/-- An update keeps the devices and their tenants; it locks a device of its own tenant
only. -/
theorem Update.device (h : Update tenant before after)
    (hConsistent : TenantConsistent before) {publicId : String} {device : Device}
    (hDevice : before.device? publicId = some device) :
    ∃ next, after.device? publicId = some next ∧ next.tenantId = device.tenantId ∧
      (next.enrollmentState = device.enrollmentState ∨
        tenant = some device.tenantId ∧
          ∃ credential ∈ after.credentials, credential.devicePublicId = publicId) := by
  cases h with
  | lock devicePublicId hNamed =>
      obtain ⟨credential, hCredential, hNames, hTenant⟩ := hNamed
      have hId : device.publicId = publicId := Table.column_of_lookup hDevice
      have hAfter := device?_lock before devicePublicId publicId
      rw [hDevice, Option.map_some, hId] at hAfter
      refine ⟨_, hAfter, ?_⟩
      by_cases hSame : publicId = devicePublicId
      · rw [if_pos (decide_eq_true hSame)]
        subst hSame
        rw [← hNames] at hDevice
        have hOwner := hConsistent.tenant_eq hCredential hDevice
        refine ⟨rfl, .inr ⟨?_, credential, hCredential, hNames⟩⟩
        rw [hOwner]
        exact hTenant
      · rw [if_neg (by simpa using hSame)]
        exact ⟨rfl, .inl rfl⟩
  | _ => exact ⟨device, hDevice, rfl, .inl rfl⟩

theorem Update.hasDevice (h : Update tenant before after)
    (hConsistent : TenantConsistent before) {publicId owner : String}
    (hDevice : before.HasDevice publicId owner) : after.HasDevice publicId owner := by
  obtain ⟨device, hFound, hTenant⟩ := hDevice
  obtain ⟨next, hNext, hSame, -⟩ := h.device hConsistent hFound
  exact ⟨next, hNext, hSame.trans hTenant⟩

/-- What is new in an update names a device of its tenant. -/
theorem Update.consistent (h : Update tenant before after)
    (hConsistent : TenantConsistent before) : TenantConsistent after := by
  have hKept {publicId owner : String} (hDevice : before.HasDevice publicId owner) :
      after.HasDevice publicId owner := h.hasDevice hConsistent hDevice
  have hRequests : ∀ record ∈ after.requests,
      before.HasDevice record.devicePublicId record.tenantId := by
    cases h with
    | project requestId projection =>
        intro record hRecord
        obtain ⟨old, hOld, rfl⟩ := List.mem_map.mp hRecord
        have hDevice := hConsistent.requests old hOld
        split <;> exact hDevice
    | ingest record hNew hDevice =>
        intro found hFound
        rw [Table.put_of_absent hNew, List.mem_append, List.mem_singleton] at hFound
        rcases hFound with hOld | rfl
        · exact hConsistent.requests found hOld
        · exact hDevice
    | _ => exact hConsistent.requests
  have hCredentials : ∀ credential ∈ after.credentials,
      before.HasDevice credential.devicePublicId credential.tenantId := by
    cases h with
    | enroll credential hNew hDevice =>
        intro found hFound
        rw [Table.put_of_absent hNew, List.mem_append, List.mem_singleton] at hFound
        rcases hFound with hOld | rfl
        · exact hConsistent.credentials found hOld
        · exact hDevice
    | quarantine credentialId =>
        intro credential hCredential
        obtain ⟨old, hOld, rfl⟩ := List.mem_map.mp hCredential
        have hDevice := hConsistent.credentials old hOld
        split <;> exact hDevice
    | _ => exact hConsistent.credentials
  exact ⟨fun credential hCredential => hKept (hCredentials credential hCredential),
    fun record hRecord => hKept (hRequests record hRecord)⟩

theorem Update.credential (h : Update tenant before after) {publicId : String}
    (hNamed : ∃ credential ∈ before.credentials, credential.devicePublicId = publicId) :
    ∃ credential ∈ after.credentials, credential.devicePublicId = publicId := by
  obtain ⟨credential, hCredential, hNames⟩ := hNamed
  cases h with
  | enroll new hNew hDevice =>
      refine ⟨credential, ?_, hNames⟩
      rw [Table.put_of_absent hNew]
      exact List.mem_append_left _ hCredential
  | quarantine credentialId =>
      refine ⟨_, List.mem_map_of_mem hCredential, ?_⟩
      split <;> exact hNames
  | _ => exact ⟨credential, hCredential, hNames⟩

/-- An update adds no device. -/
theorem Update.device_none (h : Update tenant before after) {publicId : String}
    (hNone : before.device? publicId = none) : after.device? publicId = none := by
  cases h with
  | lock devicePublicId hNamed =>
      rw [device?_lock, hNone]
      rfl
  | _ => exact hNone

theorem Update.lockedNamed (h : Update tenant before after)
    (hConsistent : TenantConsistent before) (hLocked : LockedNamed before) :
    LockedNamed after := by
  intro publicId next hNext hState
  cases hBefore : before.device? publicId with
  | none =>
      rw [h.device_none hBefore] at hNext
      cases hNext
  | some device =>
      obtain ⟨found, hFound, -, hSame | ⟨-, hNamed⟩⟩ := h.device hConsistent hBefore
      · rw [hNext, Option.some.injEq] at hFound
        rw [← hFound, hState] at hSame
        exact h.credential (hLocked publicId device hBefore hSame.symm)
      · exact hNamed

/-- The updates of a segment leave the devices of other tenants as they are. -/
theorem Updates.separated (h : Updates tenant before after)
    (hConsistent : TenantConsistent before) (hLocked : LockedNamed before) :
    (TenantConsistent after ∧ LockedNamed after) ∧
      ∀ publicId device, before.device? publicId = some device →
        ∃ next, after.device? publicId = some next ∧
          next.tenantId = device.tenantId ∧
          (next.enrollmentState = device.enrollmentState ∨
            tenant = some device.tenantId) := by
  induction h with
  | refl =>
      exact ⟨⟨hConsistent, hLocked⟩, fun _ device hDevice =>
        ⟨device, hDevice, rfl, .inl rfl⟩⟩
  | tail _ hLast ih =>
      obtain ⟨⟨hMiddle, hMiddleLocked⟩, hDevices⟩ := ih
      refine ⟨⟨hLast.consistent hMiddle, hLast.lockedNamed hMiddle hMiddleLocked⟩,
        fun publicId device hDevice => ?_⟩
      obtain ⟨middle, hFound, hTenant, hState⟩ := hDevices publicId device hDevice
      obtain ⟨next, hNext, hSame, hChange⟩ := hLast.device hMiddle hFound
      refine ⟨next, hNext, hSame.trans hTenant, ?_⟩
      rcases hChange with hKept | ⟨hOwn, -⟩
      · rw [hKept]
        exact hState
      · rw [hTenant] at hOwn
        exact .inr hOwn

end Updates

/-- What holds in every state of a run without takeovers. -/
structure TenantInvariant (service : Service) : Prop where
  held : service.Admits Held
  consistent : TenantConsistent service.shared
  lockedNamed : LockedNamed service.shared

theorem TenantInvariant.fresh (officialOrigin : String) :
    TenantInvariant (Service.fresh officialOrigin) := by
  refine ⟨?_, ⟨?_, ?_⟩, ?_⟩
  · intro point hPoint
    cases hPoint
  · intro credential hCredential
    cases hCredential
  · intro record hRecord
    cases hRecord
  · intro publicId device hDevice
    cases hDevice

/-! ### Segments -/

section Runs

variable [Cryptography]

/-- The segment completes no pairing of a device that is stored for another tenant and
that a credential or a request names. -/
def NoTakeover (runtime : M3Runtime) (stimulus : Stimulus) : Prop :=
  ∀ pairing next account device, runtime.pairing? pairing.id = some pairing →
    Confirms pairing stimulus next → next.completedFor? = some account →
    runtime.device? pairing.devicePublicId = some device →
    runtime.Names pairing.devicePublicId → device.tenantId = account.tenantId

section Effects

variable {before after : M3Runtime} {stimulus : Stimulus} {progress : Progress}

omit [Cryptography] in
/-- The device of a completed pairing takes the place of the one that was stored under
its identifier. -/
theorem device?_of_put {device : Device} {publicId : String}
    (hDevices : after.devices = Table.put Device.publicId device before.devices) :
    after.device? publicId =
      if device.publicId = publicId then some device else before.device? publicId := by
  rw [M3Runtime.device?, hDevices, Table.lookup_put]
  rfl

omit [Cryptography] in
theorem TenantConsistent.of_same (hConsistent : TenantConsistent before)
    (hCredentials : after.credentials = before.credentials)
    (hRequests : after.requests = before.requests)
    (hDevices : ∀ publicId owner, before.Names publicId →
      before.HasDevice publicId owner → after.HasDevice publicId owner) :
    TenantConsistent after := by
  constructor
  · intro credential hCredential
    rw [hCredentials] at hCredential
    exact hDevices _ _ (.inl ⟨credential, hCredential, rfl⟩)
      (hConsistent.credentials credential hCredential)
  · intro record hRecord
    rw [hRequests] at hRecord
    exact hDevices _ _ (.inr ⟨record, hRecord, rfl⟩)
      (hConsistent.requests record hRecord)

/-- Without a takeover the tenants stay consistent. -/
theorem Effect.consistent (h : Effect before stimulus progress after)
    (hConsistent : TenantConsistent before) (hLocked : LockedNamed before)
    (hTakeover : NoTakeover before stimulus) :
    TenantConsistent after ∧ LockedNamed after := by
  rcases h.devices with hUpdates | ⟨changed, hStores, hSame | hCompleted⟩
  · exact (hUpdates.separated hConsistent hLocked).1
  · refine ⟨hConsistent.of_same hStores.credentials hStores.requests ?_, ?_⟩
    · rintro publicId owner - ⟨device, hFound, hTenant⟩
      exact ⟨device, (device?_of_same hSame publicId).trans hFound, hTenant⟩
    · intro publicId device hFound hState
      rw [device?_of_same hSame] at hFound
      rw [hStores.credentials]
      exact hLocked publicId device hFound hState
  · obtain ⟨pairing, next, account, hFound, hConfirms, hComplete, hDevices⟩ := hCompleted
    have hPublicId : (next.device account).publicId = pairing.devicePublicId :=
      hConfirms.continues.2.transcript.1
    refine ⟨hConsistent.of_same hStores.credentials hStores.requests ?_, ?_⟩
    · rintro publicId owner hNames ⟨device, hDevice, hTenant⟩
      rw [M3Runtime.HasDevice, device?_of_put hDevices]
      by_cases hSamePublicId : (next.device account).publicId = publicId
      · rw [hPublicId] at hSamePublicId
        subst hSamePublicId
        have hOwner := hTakeover pairing next account device hFound hConfirms
          hComplete hDevice hNames
        rw [if_pos hPublicId]
        exact ⟨_, rfl, hOwner.symm.trans hTenant⟩
      · rw [if_neg hSamePublicId]
        exact ⟨device, hDevice, hTenant⟩
    · intro publicId device hDevice hState
      rw [device?_of_put hDevices] at hDevice
      rw [hStores.credentials]
      split at hDevice
      · cases hDevice
        cases hState
      · exact hLocked publicId device hDevice hState

/-- An enrolment state changes in a session of the tenant of the device, or with the
confirmation of a broker. -/
theorem Effect.enrollment (h : Effect before stimulus progress after)
    (hHolds : stimulus.Holds before) (hConsistent : TenantConsistent before)
    (hLocked : LockedNamed before) (hTakeover : NoTakeover before stimulus)
    {publicId : String} {device next : Device}
    (hDevice : before.device? publicId = some device)
    (hNext : after.device? publicId = some next)
    (hChange : next.enrollmentState ≠ device.enrollmentState) :
    stimulus.tenant? = some device.tenantId ∨
      ∃ pairingId nonce brokerPublicKey surroundings, stimulus =
        .call (.confirmPairingFromBroker pairingId nonce brokerPublicKey)
          surroundings := by
  rcases h.devices with hUpdates | ⟨changed, hStores, hSame | hCompleted⟩
  · obtain ⟨found, hFound, -, hState | hOwn⟩ :=
      (hUpdates.separated hConsistent hLocked).2 publicId device hDevice
    · rw [hNext, Option.some.injEq] at hFound
      rw [hFound] at hChange
      exact absurd hState hChange
    · exact .inl hOwn
  · rw [device?_of_same hSame, hDevice, Option.some.injEq] at hNext
    exact absurd (congrArg Device.enrollmentState hNext).symm hChange
  · obtain ⟨pairing, found, account, hFound, hConfirms, hComplete, hDevices⟩ := hCompleted
    have hPublicId : (found.device account).publicId = pairing.devicePublicId :=
      hConfirms.continues.2.transcript.1
    rw [device?_of_put hDevices, hPublicId] at hNext
    by_cases hOther : pairing.devicePublicId = publicId
    swap
    · rw [if_neg hOther, hDevice, Option.some.injEq] at hNext
      rw [hNext] at hChange
      exact absurd rfl hChange
    rw [if_pos hOther, Option.some.injEq] at hNext
    subst hOther
    -- The new device is active, so the old one was locked, and a credential names it.
    have hState : device.enrollmentState = .approvalLocked := by
      rw [← hNext] at hChange
      cases hOld : device.enrollmentState with
      | active => exact absurd hOld.symm hChange
      | approvalLocked => rfl
    have hNamed := hLocked pairing.devicePublicId device hDevice hState
    have hOwner := hTakeover pairing found account device hFound hConfirms hComplete
      hDevice (.inl hNamed)
    cases hConfirms with
    | broker nonce brokerPublicKey surroundings =>
        exact .inr ⟨_, nonce, brokerPublicKey, surroundings, rfl⟩
    | account session body code surroundings hBody hCode =>
        left
        have hAccount : pairing.claimedBy = some account :=
          (Pairing.completedFor?_eq_some_iff.mp hComplete).2.2.2
        rw [hHolds.claimedBy hFound, Option.some.injEq] at hAccount
        rw [hOwner, ← hAccount]
        rfl

end Effects

/-! ### Runs -/

/-- The turn is a segment of `handle` in this session. -/
def ActsFor (session : Session) (service : Service) (turn : Turn) : Prop :=
  (∃ request surroundings, turn = .enter (.handle request, surroundings) ∧
    requireSession request surroundings.admittedAt service.shared =
      (.ok session, service.shared)) ∨
  ∃ index point settled, turn = .resume index settled ∧
    service.tasks[index]? = some (.suspended point) ∧ point.session? = some session

/-- Through `handle` a session reaches devices of its own tenant only. -/
structure Separated (service : Service) (turn : Turn) : Prop where
  /-- A decision is forwarded for a device of the tenant. -/
  decisions : ∀ session requestId input surroundings,
    Forwards session requestId input surroundings service turn →
    ∃ record device, service.shared.request? requestId = some record ∧
      service.shared.device? record.devicePublicId = some device ∧
      device.tenantId = session.tenantId
  /-- An enrolment state changes for a device of the tenant. -/
  enrollments : ∀ session publicId device next, ActsFor session service turn →
    service.shared.device? publicId = some device →
    (service.turn turn).shared.device? publicId = some next →
    next.enrollmentState ≠ device.enrollmentState →
    device.tenantId = session.tenantId

/-- Tenants are separated in every state and in every turn of a run. -/
structure TenantsSeparated (officialOrigin : String) (turns : List Turn) : Prop where
  consistent : ∀ earlier, earlier <+: turns →
    TenantConsistent (run Service.turn (Service.fresh officialOrigin) earlier).shared
  separated : Throughout Service.turn (Service.fresh officialOrigin) turns Separated

/-- No turn takes over a device of another tenant. -/
def TurnTakesNothingOver (service : Service) (turn : Turn) : Prop :=
  ∀ stimulus, service.stimulus? turn = some stimulus →
    NoTakeover service.shared stimulus

theorem TenantInvariant.turn {service : Service} (h : TenantInvariant service)
    {turn : Turn} (hTurn : TurnTakesNothingOver service turn) :
    TenantInvariant (service.turn turn) := by
  cases hStimulus : service.stimulus? turn with
  | none =>
      rw [turn_of_stimulus_none hStimulus]
      exact h
  | some stimulus =>
      obtain ⟨hConsistent, hLocked⟩ := (turn_effect h.held hStimulus).consistent
        h.consistent h.lockedNamed (hTurn stimulus hStimulus)
      exact ⟨turn_held h.held turn, hConsistent, hLocked⟩

theorem TenantInvariant.run {officialOrigin : String} {turns : List Turn}
    (h : Throughout Service.turn (Service.fresh officialOrigin) turns
      TurnTakesNothingOver) :
    TenantInvariant (run Service.turn (Service.fresh officialOrigin) turns) :=
  run_invariant_of_throughout (.fresh officialOrigin)
    (fun _ _ hService hTurn => hService.turn hTurn) h

/-- With consistent tenants a session reaches devices of its own tenant only. -/
theorem TenantInvariant.separated {service : Service} (h : TenantInvariant service)
    (hAdmits : service.Admits Admitted) {turn : Turn}
    (hTurn : TurnTakesNothingOver service turn) : Separated service turn where
  decisions := by
    intro session requestId input surroundings hForwards
    have hAuthorized := (hForwards.cases hAdmits).1
    obtain ⟨record, credential, hRecord, -, -, hTenant, -⟩ := hAuthorized
    obtain ⟨device, hDevice, hOwner⟩ :=
      h.consistent.requests record (Table.mem_of_lookup hRecord)
    exact ⟨record, device, hRecord, hDevice, hOwner.trans hTenant.symm⟩
  enrollments := by
    intro session publicId device next hActs hDevice hNext hChange
    have hIdle : service.stimulus? turn ≠ none := by
      intro hNone
      rw [turn_of_stimulus_none hNone, hDevice, Option.some.injEq] at hNext
      rw [hNext] at hChange
      exact hChange rfl
    obtain ⟨stimulus, hStimulus⟩ := Option.ne_none_iff_exists'.mp hIdle
    have hReached := (turn_effect h.held hStimulus).enrollment
      (holds_of_stimulus h.held hStimulus) h.consistent h.lockedNamed
      (hTurn stimulus hStimulus) hDevice hNext hChange
    rcases hActs with ⟨request, surroundings, rfl, -⟩ | hResumed
    · -- A new request changes no enrolment state.
      cases hStimulus
      rcases hReached with hNone | ⟨_, _, _, _, hCall⟩
      · cases hNone
      · cases hCall
    · obtain ⟨index, point, settled, rfl, hTask, hSession⟩ := hResumed
      rw [Service.stimulus?, hTask] at hStimulus
      cases hStimulus
      rcases hReached with hOwn | ⟨_, _, _, _, hCall⟩
      · rw [Stimulus.tenant?, hSession, Option.map_some, Option.some.injEq] at hOwn
        exact hOwn.symm
      · cases hCall

/-- In a run tenants stay separated exactly when no completed pairing takes over a
device that a credential or a request of another tenant names. -/
theorem tenantsSeparated_iff (officialOrigin : String) (turns : List Turn) :
    TenantsSeparated officialOrigin turns ↔
      Throughout Service.turn (Service.fresh officialOrigin) turns
        TurnTakesNothingOver := by
  constructor
  · intro hSeparated earlier turn later hTurns stimulus hStimulus pairing next account
      device hFound hConfirms hComplete hDevice hNames
    let service := run Service.turn (Service.fresh officialOrigin) earlier
    have hBefore : TenantConsistent service.shared :=
      hSeparated.consistent earlier ⟨turn :: later, hTurns.symm⟩
    have hAfter : TenantConsistent (service.turn turn).shared := by
      have hPrefix : earlier ++ [turn] <+: turns := ⟨later, by simp [hTurns]⟩
      have hNext := hSeparated.consistent (earlier ++ [turn]) hPrefix
      rw [run_concat] at hNext
      exact hNext
    have hSettles := confirms_run hFound hConfirms
    rw [← (turn_of_stimulus hStimulus).1, Settles, hComplete] at hSettles
    obtain ⟨hStores, hDevices⟩ := hSettles
    have hPublicId : (next.device account).publicId = pairing.devicePublicId :=
      hConfirms.continues.2.transcript.1
    have hTaken : (service.turn turn).shared.device? pairing.devicePublicId =
        some (next.device account) := by
      rw [device?_of_put hDevices, if_pos hPublicId]
    -- Whoever names the device is of its tenant before the turn and after it.
    have hOwner : ∀ owner, service.shared.HasDevice pairing.devicePublicId owner →
        (service.turn turn).shared.HasDevice pairing.devicePublicId owner →
        device.tenantId = account.tenantId := by
      rintro owner ⟨old, hOld, rfl⟩ ⟨new, hNew, hSame⟩
      rw [hDevice, Option.some.injEq] at hOld
      rw [hTaken, Option.some.injEq] at hNew
      rw [hOld, ← hSame, ← hNew]
      rfl
    rcases hNames with ⟨credential, hCredential, hName⟩ | ⟨record, hRecord, hName⟩
    · rw [← hName] at hOwner
      refine hOwner _ (hBefore.credentials credential hCredential) ?_
      apply hAfter.credentials
      rw [hStores.credentials]
      exact hCredential
    · rw [← hName] at hOwner
      refine hOwner _ (hBefore.requests record hRecord) ?_
      apply hAfter.requests
      rw [hStores.requests]
      exact hRecord
  · intro hTurns
    constructor
    · intro earlier hPrefix
      exact (TenantInvariant.run (hTurns.of_prefix hPrefix)).consistent
    · intro earlier turn later hShape
      have hPrefix : earlier <+: turns := ⟨turn :: later, hShape.symm⟩
      have hInvariant := TenantInvariant.run (hTurns.of_prefix hPrefix)
      exact hInvariant.separated (run_admitted officialOrigin earlier)
        (hTurns earlier turn later hShape)

end Runs

/-! ### A device that is taken over -/

/-- The random bytes of a second session. -/
def otherSurroundings : Surroundings :=
  { sampleSurroundings with
    firstToken := ByteArr.fill 32 5
    secondToken := ByteArr.fill 32 6 }

/-- A request of the second session. -/
def otherRequest (pathname : String) : Request :=
  { sampleRequest pathname with
    csrf := some (randomToken otherSurroundings.secondToken)
    cookie := some ("rp_session=" ++ randomToken otherSurroundings.firstToken) }

def takeoverPairing (pairingId : String) : PairingInput where
  pairingId
  devicePublicId := "AQEBAQEBAQEBAQEBAQEBAQ"
  brokerPublicKey := List.replicate 32 1
  nonce := List.replicate 32 2
  comparisonCode := "123456"
  expiresAt := .finite 100

/-- Two accounts of different tenants sign in, the first one pairs a device and enrols a
credential, and the second one pairs the same device. -/
def takeoverTurns : List Turn :=
  let enter (call : Call) : Turn := .enter (call, sampleSurroundings)
  let settle (index : Nat) (settled : Settled) : Turn :=
    .resume index (settled, sampleSurroundings)
  let account := .body (.object [("email", .string "a@example.test"),
    ("password", .string "correct")])
  let code := .body (.object [("comparisonCode", .string "123456")])
  [enter (.handle (sampleRequest "/v1/account/session")), settle 0 account,
    settle 0 (.identity (some { tenantId := "tenant", accountId := "account" })),
    enter (.handle (sampleRequest "/v1/account/session")), settle 1 account,
    .resume 1 (.identity (some { tenantId := "other", accountId := "account" }),
      otherSurroundings),
    enter (.preparePairing (takeoverPairing "AAAAAAAAAAAAAAAAAAAAAA")),
    enter (.handle (sampleRequest "/v1/pairings/AAAAAAAAAAAAAAAAAAAAAA/claim")),
    enter (.handle (sampleRequest "/v1/pairings/AAAAAAAAAAAAAAAAAAAAAA/confirm")),
    settle 4 code,
    enter (.confirmPairingFromBroker "AAAAAAAAAAAAAAAAAAAAAA" (List.replicate 32 2)
      (List.replicate 32 1)),
    enter (.enrollCredential
      { publicId := "AwMDAwMDAwMDAwMDAwMDAw", tenantId := "tenant"
        devicePublicId := "AQEBAQEBAQEBAQEBAQEBAQ", generation := .integer 1 }),
    enter (.preparePairing (takeoverPairing "BBBBBBBBBBBBBBBBBBBBBB")),
    enter (.handle (otherRequest "/v1/pairings/BBBBBBBBBBBBBBBBBBBBBB/claim")),
    enter (.handle (otherRequest "/v1/pairings/BBBBBBBBBBBBBBBBBBBBBB/confirm")),
    settle 9 code,
    enter (.confirmPairingFromBroker "BBBBBBBBBBBBBBBBBBBBBB" (List.replicate 32 2)
      (List.replicate 32 1))]

/-- The credential of the first tenant names a device of the second one. -/
theorem device_taken_over :
    let _ : Cryptography := keyedHashCryptography
    ¬ ∀ officialOrigin turns, TenantsSeparated officialOrigin turns := by
  intro _ hSeparated
  have hConsistent := (hSeparated "https://rootpermit.example" takeoverTurns).consistent
    takeoverTurns (List.prefix_refl _)
  exact absurd hConsistent.credentials (by decide +kernel)

end M3
end Hosted
end RootPermit
