import Mathlib.Logic.Relation
import RootPermit.Hosted.Forwarding

/-!
# Updates outside the pairings

Whatever a segment does besides the pairings is a sequence of single updates of the
runtime (`Update`).  A new credential or request is stored only next to the device that
it names, and a device is locked only for a tenant with a credential that names it.
This module goes through the segments that leave the pairings alone, and through the
points at which they suspend their tasks (`Held`).
-/

namespace RootPermit
namespace Hosted
namespace M3

open Foundation

def M3Runtime.pairing? (runtime : M3Runtime) (id : String) : Option Pairing :=
  Table.lookup Pairing.id id runtime.pairings

def M3Runtime.device? (runtime : M3Runtime) (publicId : String) : Option Device :=
  Table.lookup Device.publicId publicId runtime.devices

/-- The device is stored for this tenant. -/
def M3Runtime.HasDevice (runtime : M3Runtime) (publicId tenantId : String) : Prop :=
  ∃ device, runtime.device? publicId = some device ∧ device.tenantId = tenantId

instance (runtime : M3Runtime) (publicId tenantId : String) :
    Decidable (runtime.HasDevice publicId tenantId) :=
  inferInstanceAs (Decidable (∃ device ∈ runtime.device? publicId,
    device.tenantId = tenantId))

/-- One update of the runtime, in a session of this tenant if in one. -/
inductive Update (tenant : Option String) (before : M3Runtime) : M3Runtime → Prop where
  | session (session : Session) : Update tenant before
      { before with sessions := Table.put Session.token session before.sessions }
  | inbox (entry : String × RelayMessage) : Update tenant before
      { before with relayInbox := Table.put Prod.fst entry before.relayInbox }
  | outbox (message : RelayMessage) : Update tenant before
      { before with relayOutbox := before.relayOutbox ++ [message] }
  | project (requestId : String) (projection : RequestProjection) : Update tenant before
      { before with
        requests := Table.update (fun record => decide (record.publicId = requestId))
          (fun record => { record with projection }) before.requests }
  | ingest (record : RequestRecord) (hNew : before.request? record.publicId = none)
      (hDevice : before.HasDevice record.devicePublicId record.tenantId) :
      Update tenant before
      { before with
        requests := Table.put RequestRecord.publicId record before.requests }
  | enroll (credential : Credential)
      (hNew : before.credential? credential.publicId = none)
      (hDevice : before.HasDevice credential.devicePublicId credential.tenantId) :
      Update tenant before
      { before with
        credentials := Table.put Credential.publicId credential before.credentials }
  | quarantine (credentialId : String) :
      Update tenant before (quarantine before credentialId)
  | lock (devicePublicId : String)
      (hNamed : ∃ credential ∈ before.credentials,
        credential.devicePublicId = devicePublicId ∧
          tenant = some credential.tenantId) :
      Update tenant before
      { before with
        devices := Table.update
          (fun device => decide (device.publicId = devicePublicId))
          (fun device => { device with enrollmentState := .approvalLocked })
          before.devices }

abbrev Updates (tenant : Option String) : M3Runtime → M3Runtime → Prop :=
  Relation.ReflTransGen (Update tenant)

instance (tenant : Option String) : IsPreorder M3Runtime (Updates tenant) where
  refl _ := .refl
  trans _ _ _ := .trans

/-- What every update preserves, all updates together preserve. -/
theorem Updates.preserve {tenant : Option String} {I : M3Runtime → Prop}
    {before after : M3Runtime} (h : Updates tenant before after)
    (hUpdate : ∀ {first second}, Update tenant first second → I first → I second)
    (hBefore : I before) : I after := by
  induction h with
  | refl => exact hBefore
  | tail _ hLast ih => exact hUpdate hLast ih

theorem device?_of_same {before after : M3Runtime}
    (hDevices : after.devices = before.devices) (publicId : String) :
    after.device? publicId = before.device? publicId := by
  rw [M3Runtime.device?, M3Runtime.device?, hDevices]

theorem device?_lock (runtime : M3Runtime) (devicePublicId publicId : String) :
    { runtime with
      devices := Table.update
        (fun device => decide (device.publicId = devicePublicId))
        (fun device => { device with enrollmentState := .approvalLocked })
        runtime.devices }.device? publicId =
      (runtime.device? publicId).map fun device =>
        if decide (device.publicId = devicePublicId) then
          { device with enrollmentState := .approvalLocked }
        else device :=
  Table.lookup_update fun _ => rfl

/-- No update makes a device active. -/
theorem Updates.active {tenant : Option String} {before after : M3Runtime}
    (h : Updates tenant before after) {publicId : String} {device : Device}
    (hDevice : after.device? publicId = some device)
    (hActive : device.enrollmentState = .active) :
    before.device? publicId = some device := by
  refine h.preserve (I := fun runtime => runtime.device? publicId = some device →
    before.device? publicId = some device) ?_ (fun hSame => hSame) hDevice
  intro first second hUpdate hFirst hSecond
  cases hUpdate with
  | lock devicePublicId hNamed =>
      rw [device?_lock, Option.map_eq_some_iff] at hSecond
      obtain ⟨old, hOld, hChange⟩ := hSecond
      split at hChange
      · rw [← hChange] at hActive
        cases hActive
      · rw [← hChange] at hFirst ⊢
        exact hFirst hOld
  | _ => exact hFirst hSecond

theorem Updates.pairings {tenant : Option String} {before after : M3Runtime}
    (h : Updates tenant before after) : after.pairings = before.pairings := by
  refine h.preserve (I := fun runtime => runtime.pairings = before.pairings) ?_ rfl
  intro first second hUpdate hSame
  cases hUpdate <;> exact hSame

/-! ### Points -/

/-- The points at which a route holds a pairing or a credential: the account of the
session has claimed the pairing, and the tenant of the session owns the credential. -/
def Held : Point → M3Runtime → Prop
  | .pairingBody session pairingId, runtime =>
      ∃ pairing, runtime.pairing? pairingId = some pairing ∧
        pairing.claimedBy = some session.toAccountIdentity
  | .revocationProof session credentialId devicePublicId, runtime =>
      ∃ credential, runtime.credential? credentialId = some credential ∧
        credential.devicePublicId = devicePublicId ∧
        credential.tenantId = session.tenantId
  | _, _ => True

/-- The point at which a segment suspends its task is held. -/
def PointHeld (progress : Progress) (runtime : M3Runtime) : Prop :=
  ∀ point, progress = .suspended point → Held point runtime

/-! ### The segments that leave the pairings alone -/

section Updates

variable {tenant : Option String} {runtime : M3Runtime}

/-- From this state the segment makes updates. -/
def Updating {α : Type} (tenant : Option String) (handler : Handler α)
    (runtime : M3Runtime) (post : α → M3Runtime → Prop) : Prop :=
  Segment.Guarantees (Updates tenant) handler runtime post

theorem respond_updating (response : Response) :
    Updating tenant (respond response) runtime PointHeld := by
  apply Segment.Guarantees.pure
  intro point hPoint
  cases hPoint

theorem await_updating {point : Point} (h : Held point runtime) :
    Updating tenant (await point) runtime PointHeld := by
  apply Segment.Guarantees.pure
  intro found hFound
  cases hFound
  exact h

/-- The check of the token leaves the runtime alone. -/
theorem requireCsrf_updating (request : Request) (session : Session) :
    Updating tenant (requireCsrf request session) runtime
      fun _ state => state = runtime := by
  apply Segment.Guarantees.check_bind
  intro _ _
  apply Segment.Guarantees.check
  intro _ _
  rfl

theorem createSessionWithIdentity_updating (identity : Option AccountIdentity)
    (surroundings : Surroundings) :
    Updating tenant (createSessionWithIdentity identity surroundings) runtime
      PointHeld := by
  cases identity with
  | none => exact respond_updating _
  | some identity =>
      apply Segment.Guarantees.change_bind
      · exact .single (.session _)
      · exact respond_updating _

theorem enrollCredential_updating (input : CredentialInput) :
    Updating tenant (enrollCredential input) runtime fun _ _ => True := by
  apply Segment.Guarantees.check_bind
  intro _ _
  apply Segment.Guarantees.check_bind
  intro _ hDevice
  rw [rejectIf_eq_ok_iff, not_not] at hDevice
  obtain ⟨device, hFound, hTenant, -⟩ := hDevice
  apply Segment.Guarantees.check_bind
  intro _ _
  apply Segment.Guarantees.check_bind
  intro _ hLimit
  rw [rejectIf_eq_ok_iff, not_or] at hLimit
  have hNew : runtime.credential? input.publicId = none := by
    simpa using hLimit.2
  exact Segment.Guarantees.change (.single (.enroll _ hNew ⟨device, hFound, hTenant⟩))
    trivial

theorem ingestVerifiedRequest_updating (input : RequestInput) :
    Updating tenant (ingestVerifiedRequest input) runtime fun _ _ => True := by
  apply Segment.Guarantees.check_bind
  intro _ _
  apply Segment.Guarantees.check_bind
  intro _ hChecks
  rw [rejectIf_eq_ok_iff, not_or, not_not] at hChecks
  obtain ⟨device, hFound, hTenant⟩ := hChecks.1
  apply Segment.Guarantees.check_bind
  intro existing hExisting
  cases existing with
  | some existing =>
      apply Segment.Guarantees.ite
      · intro _
        exact Segment.Guarantees.pure trivial
      · intro _
        exact Segment.Guarantees.throw
  | none =>
      have hNew : runtime.request? input.publicId = none := Except.ok.inj hExisting
      exact Segment.Guarantees.change
        (.single (.ingest _ hNew ⟨device, hFound, hTenant⟩)) trivial

theorem ingestVerifiedBrokerReceipt_updating (requestPublicId : String)
    (terminalState : TerminalState) :
    Updating tenant (ingestVerifiedBrokerReceipt requestPublicId terminalState) runtime
      fun _ _ => True := by
  apply Segment.Guarantees.check_bind
  intro _ _
  exact Segment.Guarantees.change (.single (.project _ _)) trivial

theorem requestRoute_updating (session : Session) (requestId : String)
    (suffix : Option String) (request : Request) (now : Double) :
    Updating tenant (requestRoute session requestId suffix request now) runtime
      PointHeld := by
  apply Segment.Guarantees.check_bind
  intro record _
  apply Segment.Guarantees.ite
  · intro _
    exact respond_updating _
  intro _
  apply Segment.Guarantees.ite
  · intro _
    exact respond_updating _
  intro _
  apply Segment.Guarantees.ite
  · intro _
    apply (requireCsrf_updating request session).bind
    rintro _ _ rfl
    apply Segment.Guarantees.check_bind
    intro _ _
    exact await_updating trivial
  · intro _
    exact Segment.Guarantees.throw

/-- A revocation is for a credential of the tenant of the session. -/
theorem revocationRoute_updating (session : Session) (credentialId : String)
    (request : Request) :
    Updating tenant (revocationRoute session credentialId request) runtime
      PointHeld := by
  apply (requireCsrf_updating request session).bind
  rintro _ _ rfl
  apply Segment.Guarantees.check_bind
  intro credential hCredential
  obtain ⟨found, hFound, hRest⟩ := bind_eq_ok_iff.mp hCredential
  rw [orFault_eq_ok_iff] at hFound
  obtain ⟨_, hTenant, hSame⟩ := bind_eq_ok_iff.mp hRest
  rw [rejectIf_eq_ok_iff, not_not] at hTenant
  cases hSame
  exact await_updating ⟨credential, hFound, rfl, hTenant⟩

/-- After a quarantine the credential still names its device. -/
theorem finishRevocation_updating (devicePublicId : String) (proof : Bytes)
    (surroundings : Surroundings)
    (hNamed : ∃ credential ∈ runtime.credentials,
      credential.devicePublicId = devicePublicId ∧ tenant = some credential.tenantId) :
    Updating tenant (finishRevocation devicePublicId proof surroundings) runtime
      PointHeld := by
  apply Segment.Guarantees.check_bind
  intro remaining _
  have hLock : Updating tenant (lockDevice devicePublicId remaining) runtime
      fun _ _ => True := by
    apply Segment.Guarantees.ite
    · intro _
      apply Segment.Guarantees.check_bind
      intro _ _
      exact Segment.Guarantees.change (.single (.lock _ hNamed)) trivial
    · intro _
      exact Segment.Guarantees.pure trivial
  apply hLock.bind
  intro _ _ _
  apply Segment.Guarantees.change_bind
  · exact .single (.outbox _)
  apply Segment.Guarantees.check_bind
  intro _ _
  exact respond_updating _

theorem revocationRouteWithProof_updating {session : Session}
    {credentialId devicePublicId : String} (proof : Bytes) (surroundings : Surroundings)
    (hHeld : Held (.revocationProof session credentialId devicePublicId) runtime) :
    Updating (some session.tenantId)
      (revocationRouteWithProof credentialId devicePublicId proof surroundings) runtime
      PointHeld := by
  obtain ⟨credential, hCredential, hDevice, hTenant⟩ := hHeld
  apply Segment.Guarantees.check_bind
  intro _ _
  apply Segment.Guarantees.change_bind
  · exact .single (.quarantine credentialId)
  · apply finishRevocation_updating
    refine ⟨_, List.mem_map_of_mem (Table.mem_of_lookup hCredential), ?_⟩
    have hNames : credential.devicePublicId = devicePublicId ∧
        some session.tenantId = some credential.tenantId :=
      ⟨hDevice, congrArg some hTenant.symm⟩
    split <;> exact hNames

theorem relayInboxWithBody_updating (body : Json) :
    Updating tenant (relayInboxWithBody body) runtime PointHeld := by
  apply Segment.Guarantees.check_bind
  rintro ⟨envelopeId, idempotencyKey, payload⟩ _
  apply Segment.Guarantees.change_bind
  · split
    · exact .refl
    · exact .single (.inbox _)
  · exact respond_updating _

theorem relayOutboxRoute_updating (authenticated : Bool) :
    Updating tenant (relayOutboxRoute authenticated) runtime PointHeld := by
  apply Segment.Guarantees.check_bind
  intro _ _
  apply Segment.Guarantees.check_bind
  intro _ _
  exact respond_updating _

/-- A decision queues its message and projects its request. -/
theorem decisionWithCeremony_updating [Cryptography] (session : Session)
    (requestId : String) (input : Option VerifiedBrokerCeremonyInput)
    (surroundings : Surroundings) :
    Updating tenant (decisionWithCeremony session requestId input surroundings) runtime
      PointHeld := by
  apply Segment.Guarantees.check_bind
  rintro ⟨found, ceremony⟩ _
  apply Segment.Guarantees.change_bind
  · exact .single (.outbox _)
  apply Segment.Guarantees.change_bind
  · exact .single (.project _ _)
  · exact respond_updating _

/-- A request that is not for a pairing. -/
theorem sessionRoutes_updating (session : Session) (request : Request) (now : Double)
    (h : pairingPath? request.pathname = none ∨ request.method ≠ "POST") :
    Updating tenant (sessionRoutes session request now) runtime PointHeld := by
  apply Segment.Guarantees.ite
  · intro _
    apply Segment.Guarantees.check_bind
    intro _ _
    exact respond_updating _
  intro _
  split
  · rename_i hPath hMethod
    rcases h with hNone | hOther
    · rw [hNone] at hPath
      cases hPath
    · exact absurd (of_decide_eq_true hMethod) hOther
  · split
    · exact requestRoute_updating session _ _ request now
    · split
      · exact revocationRoute_updating session _ request
      · exact respond_updating _

end Updates

end M3
end Hosted
end RootPermit
