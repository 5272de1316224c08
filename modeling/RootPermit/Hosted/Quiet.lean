import RootPermit.Hosted.Runtime

/-!
# Quiet segments of the runtime

Requests and credentials only ever advance (`Advances`): they are not replaced, a
request does not become pending again, and a quarantine is not lifted.  A segment is
quiet when it advances the runtime and queues no decision for the broker (`Quiet`).
This module goes through the routes: all segments are quiet, except the one after the
ceremony of a decision, and a task is suspended at a point that suits what it holds
(`Admitted`).
-/

namespace RootPermit
namespace Hosted
namespace M3

open Foundation

/-! ### What segments preserve -/

/-- Requests and credentials stay what they are; a request does not become pending,
and a quarantine is not lifted. -/
structure Advances (before after : M3Runtime) : Prop where
  requests : ∀ id record, before.request? id = some record →
    ∃ next, after.request? id = some next ∧ next.tenantId = record.tenantId ∧
      next.devicePublicId = record.devicePublicId ∧
      next.expiresAt = record.expiresAt ∧
      (next.projection = .pending → record.projection = .pending)
  credentials : ∀ id credential, before.credential? id = some credential →
    ∃ next, after.credential? id = some next ∧
      next.tenantId = credential.tenantId ∧
      next.devicePublicId = credential.devicePublicId ∧
      (credential.quarantined = true → next.quarantined = true)

/-- The decisions that were queued for the broker. -/
def M3Runtime.decisionSubmissions (runtime : M3Runtime) : List RelayMessage :=
  runtime.relayOutbox.filter fun message =>
    decide (message.kind = some .decisionSubmission)

/-- The runtime advances without queueing a decision. -/
structure Quiet (before after : M3Runtime) : Prop extends Advances before after where
  silent : after.decisionSubmissions = before.decisionSubmissions

theorem Advances.refl (runtime : M3Runtime) : Advances runtime runtime where
  requests := fun _ record h => ⟨record, h, rfl, rfl, rfl, id⟩
  credentials := fun _ credential h => ⟨credential, h, rfl, rfl, id⟩

theorem Advances.trans {first second third : M3Runtime}
    (hFirst : Advances first second) (hSecond : Advances second third) :
    Advances first third where
  requests := by
    intro id record hRecord
    obtain ⟨middle, hMiddle, hTenant, hDevice, hExpires, hPending⟩ :=
      hFirst.requests id record hRecord
    obtain ⟨last, hLast, hTenant', hDevice', hExpires', hPending'⟩ :=
      hSecond.requests id middle hMiddle
    exact ⟨last, hLast, hTenant'.trans hTenant, hDevice'.trans hDevice,
      hExpires'.trans hExpires, fun h => hPending (hPending' h)⟩
  credentials := by
    intro id credential hCredential
    obtain ⟨middle, hMiddle, hTenant, hDevice, hQuarantined⟩ :=
      hFirst.credentials id credential hCredential
    obtain ⟨last, hLast, hTenant', hDevice', hQuarantined'⟩ :=
      hSecond.credentials id middle hMiddle
    exact ⟨last, hLast, hTenant'.trans hTenant, hDevice'.trans hDevice,
      fun h => hQuarantined' (hQuarantined h)⟩

theorem Quiet.refl (runtime : M3Runtime) : Quiet runtime runtime where
  toAdvances := .refl runtime
  silent := rfl

theorem Quiet.trans {first second third : M3Runtime} (hFirst : Quiet first second)
    (hSecond : Quiet second third) : Quiet first third where
  toAdvances := hFirst.toAdvances.trans hSecond.toAdvances
  silent := hSecond.silent.trans hFirst.silent

/-- The other maps of the runtime do not matter. -/
theorem Quiet.of_unchanged {before after : M3Runtime}
    (hRequests : after.requests = before.requests)
    (hCredentials : after.credentials = before.credentials)
    (hOutbox : after.relayOutbox = before.relayOutbox) : Quiet before after where
  requests := by
    intro id record hRecord
    refine ⟨record, ?_, rfl, rfl, rfl, fun h => h⟩
    rw [M3Runtime.request?, hRequests]
    exact hRecord
  credentials := by
    intro id credential hCredential
    refine ⟨credential, ?_, rfl, rfl, fun h => h⟩
    rw [M3Runtime.credential?, hCredentials]
    exact hCredential
  silent := by
    rw [M3Runtime.decisionSubmissions, hOutbox]
    rfl

/-- A new request takes no key that is in use. -/
theorem Quiet.of_new_request {runtime : M3Runtime} {record : RequestRecord}
    (hNew : runtime.request? record.publicId = none) :
    Quiet runtime
      { runtime with
        requests := Table.put RequestRecord.publicId record runtime.requests } where
  requests := by
    intro id found hFound
    refine ⟨found, ?_, rfl, rfl, rfl, fun h => h⟩
    rw [M3Runtime.request?, Table.put_of_absent hNew, Table.lookup_append]
    rw [M3Runtime.request?] at hFound
    rw [hFound]
    rfl
  credentials := fun _ credential h => ⟨credential, h, rfl, rfl, fun h => h⟩
  silent := rfl

/-- A new credential takes no key that is in use. -/
theorem Quiet.of_new_credential {runtime : M3Runtime} {credential : Credential}
    (hNew : runtime.credential? credential.publicId = none) :
    Quiet runtime
      { runtime with
        credentials := Table.put Credential.publicId credential
          runtime.credentials } where
  requests := fun _ record h => ⟨record, h, rfl, rfl, rfl, fun h => h⟩
  credentials := by
    intro id found hFound
    refine ⟨found, ?_, rfl, rfl, fun h => h⟩
    rw [M3Runtime.credential?, Table.put_of_absent hNew, Table.lookup_append]
    rw [M3Runtime.credential?] at hFound
    rw [hFound]
    rfl
  silent := rfl

/-- What every change of a request keeps, unless the change makes it pending. -/
theorem Advances.of_request_update {runtime : M3Runtime}
    {condition : RequestRecord → Bool} {change : RequestRecord → RequestRecord}
    (hKey : ∀ record, (change record).publicId = record.publicId)
    (hKept : ∀ record, (change record).tenantId = record.tenantId ∧
      (change record).devicePublicId = record.devicePublicId ∧
      (change record).expiresAt = record.expiresAt)
    (hPending : ∀ record, (change record).projection ≠ .pending) :
    Advances runtime
      { runtime with
        requests := Table.update condition change runtime.requests } where
  requests := by
    intro id record hRecord
    refine ⟨if condition record then change record else record, ?_⟩
    rw [M3Runtime.request?] at hRecord ⊢
    rw [Table.lookup_update hKey, hRecord]
    refine ⟨rfl, ?_⟩
    by_cases hCondition : condition record = true
    · rw [if_pos hCondition]
      obtain ⟨hTenant, hDevice, hExpires⟩ := hKept record
      exact ⟨hTenant, hDevice, hExpires, fun h => absurd h (hPending record)⟩
    · rw [if_neg hCondition]
      exact ⟨rfl, rfl, rfl, fun h => h⟩
  credentials := fun _ credential h => ⟨credential, h, rfl, rfl, fun h => h⟩

theorem Advances.of_projection {runtime : M3Runtime} {requestId : String}
    {projection : RequestProjection} (hPending : projection ≠ .pending) :
    Advances runtime
      { runtime with
        requests := Table.update (fun record => decide (record.publicId = requestId))
          (fun record => { record with projection }) runtime.requests } :=
  Advances.of_request_update (fun _ => rfl) (fun _ => ⟨rfl, rfl, rfl⟩)
    fun _ => hPending

/-- What every change of a credential keeps, unless the change lifts a quarantine. -/
theorem Quiet.of_credential_update {runtime : M3Runtime}
    {condition : Credential → Bool} {change : Credential → Credential}
    (hKey : ∀ credential, (change credential).publicId = credential.publicId)
    (hKept : ∀ credential, (change credential).tenantId = credential.tenantId ∧
      (change credential).devicePublicId = credential.devicePublicId)
    (hQuarantined : ∀ credential, (change credential).quarantined = true) :
    Quiet runtime
      { runtime with
        credentials := Table.update condition change runtime.credentials } where
  requests := fun _ record h => ⟨record, h, rfl, rfl, rfl, fun h => h⟩
  credentials := by
    intro id credential hCredential
    refine ⟨if condition credential then change credential else credential, ?_⟩
    rw [M3Runtime.credential?] at hCredential ⊢
    rw [Table.lookup_update hKey, hCredential]
    refine ⟨rfl, ?_⟩
    by_cases hCondition : condition credential = true
    · rw [if_pos hCondition]
      obtain ⟨hTenant, hDevice⟩ := hKept credential
      exact ⟨hTenant, hDevice, fun _ => hQuarantined credential⟩
    · rw [if_neg hCondition]
      exact ⟨rfl, rfl, fun h => h⟩
  silent := rfl

theorem Quiet.of_revocation {runtime : M3Runtime} {message : RelayMessage}
    (hKind : message.kind = some .revocationEvent) :
    Quiet runtime
      { runtime with relayOutbox := runtime.relayOutbox ++ [message] } where
  requests := fun _ record h => ⟨record, h, rfl, rfl, rfl, fun h => h⟩
  credentials := fun _ credential h => ⟨credential, h, rfl, rfl, fun h => h⟩
  silent := by
    simp [M3Runtime.decisionSubmissions, hKind]

instance : IsPreorder M3Runtime Advances where
  refl := Advances.refl
  trans _ _ _ := Advances.trans

instance : IsPreorder M3Runtime Quiet where
  refl := Quiet.refl
  trans _ _ _ := Quiet.trans

/-- The points at which a route may be suspended: a decision belongs to a request of
the tenant of its session, and a revocation to the device of its credential. -/
def Admitted : Point → M3Runtime → Prop
  | .decisionBody session requestId, runtime
  | .decisionCeremony session requestId _, runtime =>
      ∃ record, runtime.request? requestId = some record ∧
        record.tenantId = session.tenantId
  | .revocationProof _ credentialId devicePublicId, runtime =>
      ∃ credential, runtime.credential? credentialId = some credential ∧
        credential.devicePublicId = devicePublicId
  | _, _ => True

theorem Admitted.advance {point : Point} {before after : M3Runtime}
    (hAdvances : Advances before after) (h : Admitted point before) :
    Admitted point after := by
  cases point with
  | decisionBody session requestId =>
      obtain ⟨record, hRecord, hTenant⟩ := h
      obtain ⟨next, hNext, hSame, _⟩ := hAdvances.requests _ record hRecord
      exact ⟨next, hNext, hSame.trans hTenant⟩
  | decisionCeremony session requestId payload =>
      obtain ⟨record, hRecord, hTenant⟩ := h
      obtain ⟨next, hNext, hSame, _⟩ := hAdvances.requests _ record hRecord
      exact ⟨next, hNext, hSame.trans hTenant⟩
  | revocationProof session credentialId devicePublicId =>
      obtain ⟨credential, hCredential, hDevice⟩ := h
      obtain ⟨next, hNext, _, hSame, _⟩ :=
        hAdvances.credentials _ credential hCredential
      exact ⟨next, hNext, hSame.trans hDevice⟩
  | _ => trivial

/-- The point at which a segment suspends its task is admitted. -/
def PointAdmitted (progress : Progress) (runtime : M3Runtime) : Prop :=
  ∀ point, progress = .suspended point → Admitted point runtime

/-! ### The quiet segments -/

section Quiet

variable {runtime : M3Runtime}

/-- From this state the segment is quiet. -/
def Quietly {α : Type} (handler : Handler α) (runtime : M3Runtime)
    (post : α → M3Runtime → Prop) : Prop :=
  Segment.Guarantees Quiet handler runtime post

theorem respond_quiet (response : Response) :
    Quietly (respond response) runtime PointAdmitted := by
  apply Segment.Guarantees.pure
  intro point hPoint
  cases hPoint

theorem await_quiet {point : Point} (h : Admitted point runtime) :
    Quietly (await point) runtime PointAdmitted := by
  apply Segment.Guarantees.pure
  intro found hFound
  cases hFound
  exact h

theorem requireCsrf_quiet (request : Request) (session : Session) :
    Quietly (requireCsrf request session) runtime fun _ state => state = runtime := by
  apply Segment.Guarantees.check_bind
  intro _ _
  apply Segment.Guarantees.check
  intro _ _
  rfl

theorem createSessionWithIdentity_quiet (identity : Option AccountIdentity)
    (surroundings : Surroundings) :
    Quietly (createSessionWithIdentity identity surroundings) runtime
      PointAdmitted := by
  cases identity with
  | none => exact respond_quiet _
  | some identity =>
      apply Segment.Guarantees.change_bind
      · exact Quiet.of_unchanged rfl rfl rfl
      · exact respond_quiet _

theorem updatePairing_quiet (pairingId : String) (change : Pairing → Pairing) :
    Quietly (updatePairing pairingId change) runtime fun _ _ => True :=
  Segment.Guarantees.change (Quiet.of_unchanged rfl rfl rfl) trivial

theorem livePairing_quiet (pairingId : String) (now : Double) :
    Quietly (livePairing pairingId now) runtime fun _ _ => True := by
  apply Segment.Guarantees.check_bind
  intro found _
  cases found with
  | none => exact Segment.Guarantees.throw
  | some pairing =>
      apply Segment.Guarantees.ite
      · intro _
        apply (updatePairing_quiet pairingId _).bind
        intro _ _ _
        exact Segment.Guarantees.throw
      · intro _
        exact Segment.Guarantees.pure trivial

theorem tryActivate_quiet (pairingId : String) :
    Quietly (tryActivate pairingId) runtime fun _ _ => True := by
  apply Segment.Guarantees.check_bind
  intro pairing _
  cases pairing.claimedBy with
  | none => exact Segment.Guarantees.pure trivial
  | some account =>
      apply Segment.Guarantees.ite
      · intro _
        apply Segment.Guarantees.change_bind
        · exact Quiet.of_unchanged rfl rfl rfl
        · exact updatePairing_quiet pairingId _
      · intro _
        exact Segment.Guarantees.pure trivial

theorem preparePairing_quiet [Cryptography] (input : PairingInput) (now : Double) :
    Quietly (preparePairing input now) runtime fun _ _ => True := by
  iterate 6
    apply Segment.Guarantees.check_bind
    intro _ _
  exact Segment.Guarantees.change (Quiet.of_unchanged rfl rfl rfl) trivial

theorem confirmPairingFromBroker_quiet [Cryptography] (pairingId : String)
    (nonce brokerPublicKey : Bytes) (now : Double) :
    Quietly (confirmPairingFromBroker pairingId nonce brokerPublicKey now) runtime
      fun _ _ => True := by
  apply (livePairing_quiet pairingId now).bind
  intro pairing _ _
  apply Segment.Guarantees.ite
  · intro _
    apply (updatePairing_quiet pairingId _).bind
    intro _ _ _
    exact Segment.Guarantees.throw
  · intro _
    apply (updatePairing_quiet pairingId _).bind
    intro _ _ _
    exact tryActivate_quiet pairingId

theorem pairingRoute_quiet (session : Session) (pairingId action : String)
    (request : Request) (now : Double) :
    Quietly (pairingRoute session pairingId action request now) runtime
      PointAdmitted := by
  apply (requireCsrf_quiet request session).bind
  intro _ _ _
  apply (livePairing_quiet pairingId now).bind
  intro pairing _ _
  -- A claim is answered at once; a confirmation waits for its body.
  apply Segment.Guarantees.ite
  · intro _
    apply Segment.Guarantees.check_bind
    intro _ _
    apply (updatePairing_quiet pairingId _).bind
    intro _ _ _
    exact respond_quiet _
  · intro _
    apply Segment.Guarantees.check_bind
    intro _ _
    exact await_quiet trivial

theorem pairingRouteWithBody_quiet [Cryptography] (pairingId : String)
    (body : Json) :
    Quietly (pairingRouteWithBody pairingId body) runtime PointAdmitted := by
  apply Segment.Guarantees.check_bind
  intro code _
  apply Segment.Guarantees.check_bind
  intro pairing _
  apply Segment.Guarantees.ite
  · intro _
    apply (updatePairing_quiet pairingId _).bind
    intro _ _ _
    exact Segment.Guarantees.throw
  · intro _
    apply (updatePairing_quiet pairingId _).bind
    intro _ _ _
    apply (tryActivate_quiet pairingId).bind
    intro _ _ _
    apply Segment.Guarantees.check_bind
    intro _ _
    exact respond_quiet _

theorem enrollCredential_quiet (input : CredentialInput) :
    Quietly (enrollCredential input) runtime fun _ _ => True := by
  iterate 3
    apply Segment.Guarantees.check_bind
    intro _ _
  apply Segment.Guarantees.check_bind
  intro _ hLimit
  rw [rejectIf_eq_ok_iff, not_or] at hLimit
  -- The key of the new credential is free.
  have hNew : runtime.credential? input.publicId = none := by
    simpa using hLimit.2
  exact Segment.Guarantees.change (Quiet.of_new_credential hNew) trivial

theorem revocationRoute_quiet (session : Session) (credentialId : String)
    (request : Request) :
    Quietly (revocationRoute session credentialId request) runtime
      PointAdmitted := by
  apply (requireCsrf_quiet request session).bind
  rintro _ _ rfl
  apply Segment.Guarantees.check_bind
  intro credential hCredential
  obtain ⟨found, hFound, hRest⟩ := bind_eq_ok_iff.mp hCredential
  rw [orFault_eq_ok_iff] at hFound
  obtain ⟨_, _, hSame⟩ := bind_eq_ok_iff.mp hRest
  cases hSame
  exact await_quiet ⟨credential, hFound, rfl⟩

theorem lockDevice_quiet (devicePublicId : String) (remaining : Nat) :
    Quietly (lockDevice devicePublicId remaining) runtime fun _ _ => True := by
  apply Segment.Guarantees.ite
  · intro _
    apply Segment.Guarantees.check_bind
    intro _ _
    exact Segment.Guarantees.change (Quiet.of_unchanged rfl rfl rfl) trivial
  · intro _
    exact Segment.Guarantees.pure trivial

theorem finishRevocation_quiet (devicePublicId : String) (proof : Bytes)
    (surroundings : Surroundings) :
    Quietly (finishRevocation devicePublicId proof surroundings) runtime
      PointAdmitted := by
  apply Segment.Guarantees.check_bind
  intro remaining _
  apply (lockDevice_quiet devicePublicId remaining).bind
  intro _ _ _
  apply Segment.Guarantees.change_bind
  · exact Quiet.of_revocation rfl
  apply Segment.Guarantees.check_bind
  intro _ _
  exact respond_quiet _

theorem revocationRouteWithProof_quiet (credentialId devicePublicId : String)
    (proof : Bytes) (surroundings : Surroundings) :
    Quietly (revocationRouteWithProof credentialId devicePublicId proof surroundings)
      runtime PointAdmitted := by
  apply Segment.Guarantees.check_bind
  intro _ _
  apply Segment.Guarantees.change_bind
  · exact Quiet.of_credential_update (fun _ => rfl) (fun _ => ⟨rfl, rfl⟩)
      fun _ => rfl
  · exact finishRevocation_quiet devicePublicId proof surroundings

theorem ingestVerifiedRequest_quiet (input : RequestInput) :
    Quietly (ingestVerifiedRequest input) runtime fun _ _ => True := by
  iterate 2
    apply Segment.Guarantees.check_bind
    intro _ _
  apply Segment.Guarantees.check_bind
  intro existing hExisting
  cases existing with
  | some existing =>
      apply Segment.Guarantees.ite
      · intro _
        exact Segment.Guarantees.pure trivial
      · intro _
        exact Segment.Guarantees.throw
  | none =>
      have hNew : runtime.request? input.publicId = none := Except.ok.inj hExisting
      exact Segment.Guarantees.change (Quiet.of_new_request hNew) trivial

theorem ingestVerifiedBrokerReceipt_quiet (requestPublicId : String)
    (terminalState : TerminalState) :
    Quietly (ingestVerifiedBrokerReceipt requestPublicId terminalState) runtime
      fun _ _ => True := by
  apply Segment.Guarantees.check_bind
  intro _ _
  refine Segment.Guarantees.change ⟨Advances.of_projection ?_, rfl⟩ trivial
  -- A receipt is for a terminal state, never for a pending one.
  by_cases hDenied : terminalState = .denied
  · simp [hDenied]
  · simp [hDenied]

theorem requestRoute_quiet (session : Session) (requestId : String)
    (suffix : Option String) (request : Request) (now : Double) :
    Quietly (requestRoute session requestId suffix request now) runtime
      PointAdmitted := by
  apply Segment.Guarantees.check_bind
  intro record hRecord
  obtain ⟨found, hFound, hRest⟩ := bind_eq_ok_iff.mp hRecord
  rw [orFault_eq_ok_iff] at hFound
  obtain ⟨_, hTenant, hSame⟩ := bind_eq_ok_iff.mp hRest
  rw [rejectIf_eq_ok_iff, not_not] at hTenant
  cases hSame
  apply Segment.Guarantees.ite
  · intro _
    exact respond_quiet _
  intro _
  apply Segment.Guarantees.ite
  · intro _
    exact respond_quiet _
  intro _
  apply Segment.Guarantees.ite
  · intro _
    apply (requireCsrf_quiet request session).bind
    rintro _ _ rfl
    apply Segment.Guarantees.check_bind
    intro _ _
    exact await_quiet ⟨record, hFound, hTenant⟩
  · intro _
    exact Segment.Guarantees.throw

theorem relayInboxWithBody_quiet (body : Json) :
    Quietly (relayInboxWithBody body) runtime PointAdmitted := by
  apply Segment.Guarantees.check_bind
  rintro ⟨envelopeId, idempotencyKey, payload⟩ _
  apply Segment.Guarantees.change_bind
  · split
    · exact Quiet.refl _
    · exact Quiet.of_unchanged rfl rfl rfl
  · exact respond_quiet _

theorem sessionRoutes_quiet (session : Session) (request : Request) (now : Double) :
    Quietly (sessionRoutes session request now) runtime PointAdmitted := by
  apply Segment.Guarantees.ite
  · intro _
    apply Segment.Guarantees.check_bind
    intro _ _
    exact respond_quiet _
  intro _
  split
  · exact pairingRoute_quiet session _ _ request now
  · split
    · exact requestRoute_quiet session _ _ request now
    · split
      · exact revocationRoute_quiet session _ request
      · exact respond_quiet _

theorem handle_quiet (request : Request) (surroundings : Surroundings) :
    Quietly (handle request surroundings) runtime PointAdmitted := by
  apply Segment.Guarantees.ite
  · intro _
    apply Segment.Guarantees.check_bind
    intro _ _
    exact await_quiet trivial
  intro _
  apply Segment.Guarantees.ite
  · intro _
    exact await_quiet trivial
  intro _
  apply Segment.Guarantees.ite
  · intro _
    exact await_quiet trivial
  intro _
  apply Segment.Guarantees.check_bind
  intro session _
  exact sessionRoutes_quiet session request surroundings.now

/-- The body of a decision leaves the runtime alone, and the request is the same. -/
theorem decisionWithBody_quiet (session : Session) (requestId : String)
    (body : Json) :
    Quietly (decisionWithBody session requestId body) runtime
      fun progress state => Admitted (.decisionBody session requestId) runtime →
        PointAdmitted progress state := by
  apply Segment.Guarantees.check_bind
  intro payload _
  apply Segment.Guarantees.pure
  intro hAdmitted point hPoint
  cases hPoint
  exact hAdmitted

end Quiet

end M3
end Hosted
end RootPermit
