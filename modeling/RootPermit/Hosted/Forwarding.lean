import RootPermit.Foundation.Sha256
import RootPermit.Hosted.Quiet

/-!
# Forwarding of decisions

A decision reaches the broker as a message of the outbox.  Only the segment after the
ceremony queues one, and it checks everything again before it does
(`admitDecision_authorized`).

* `routine_disciplined` — all segments advance the runtime, and a suspended decision
  belongs to a request of the tenant of its session.
* `turn_cases` — a turn is quiet or forwards one authorised decision.
* `decisions_forwarded_once` — what holds of the decisions along every run.
-/

namespace RootPermit
namespace Hosted
namespace M3

open Foundation

/-! ### The decision -/

/-- The runtime after a credential was quarantined. -/
def quarantine (runtime : M3Runtime) (credentialId : String) : M3Runtime :=
  { runtime with
    credentials := Table.update
      (fun credential => decide (credential.publicId = credentialId))
      (fun credential => { credential with quarantined := true })
      runtime.credentials }

/-- The message that carries a decision to the broker. -/
def decisionMessage (input : VerifiedBrokerCeremonyInput)
    (surroundings : Surroundings) : RelayMessage where
  direction := .serviceToBroker
  kind := some .decisionSubmission
  envelopeId := randomPublicId surroundings.secondId
  idempotencyKey := randomToken surroundings.firstToken
  payload := input.brokerDecisionSubmission

/-- A record after its decision. -/
def RequestRecord.decided (decision : DecisionValue) (record : RequestRecord) :
    RequestRecord :=
  { record with projection := if decision = .approve then .approved else .denied }

theorem RequestRecord.decided_projection (decision : DecisionValue)
    (record : RequestRecord) : (record.decided decision).projection ≠ .pending := by
  cases decision with
  | approve => simp [RequestRecord.decided]
  | deny => simp [RequestRecord.decided]

/-- The runtime after a decision was queued. -/
def forward (runtime : M3Runtime) (requestId : String)
    (input : VerifiedBrokerCeremonyInput) (decision : DecisionValue)
    (surroundings : Surroundings) : M3Runtime :=
  { runtime with
    relayOutbox := runtime.relayOutbox ++ [decisionMessage input surroundings]
    requests := Table.update (fun record => decide (record.publicId = requestId))
      (RequestRecord.decided decision) runtime.requests }

theorem forward_advances (runtime : M3Runtime) (requestId : String)
    (input : VerifiedBrokerCeremonyInput) (decision : DecisionValue)
    (surroundings : Surroundings) :
    Advances runtime (forward runtime requestId input decision surroundings) := by
  have hDecided : Advances runtime
      { runtime with
        requests := Table.update (fun record => decide (record.publicId = requestId))
          (RequestRecord.decided decision) runtime.requests } :=
    Advances.of_request_update (fun _ => rfl) (fun _ => ⟨rfl, rfl, rfl⟩)
      (RequestRecord.decided_projection decision)
  -- The outbox is neither a request nor a credential.
  obtain ⟨hRequests, hCredentials⟩ := hDecided
  exact ⟨hRequests, hCredentials⟩

/-- The projection of a request is pending. -/
def Pending (requestId : String) (runtime : M3Runtime) : Prop :=
  ∃ record, runtime.request? requestId = some record ∧ record.projection = .pending

/-- The credential is enrolled and quarantined. -/
def Quarantined (credentialId : String) (runtime : M3Runtime) : Prop :=
  ∃ credential, runtime.credential? credentialId = some credential ∧
    credential.quarantined = true

/-- The request is known and no longer pending. -/
def Decided (requestId : String) (runtime : M3Runtime) : Prop :=
  ∃ record, runtime.request? requestId = some record ∧ record.projection ≠ .pending

theorem Quarantined.advance {credentialId : String} {before after : M3Runtime}
    (hAdvances : Advances before after) (h : Quarantined credentialId before) :
    Quarantined credentialId after := by
  obtain ⟨credential, hCredential, hQuarantined⟩ := h
  obtain ⟨next, hNext, _, _, hKept⟩ := hAdvances.credentials _ credential hCredential
  exact ⟨next, hNext, hKept hQuarantined⟩

theorem Decided.advance {requestId : String} {before after : M3Runtime}
    (hAdvances : Advances before after) (h : Decided requestId before) :
    Decided requestId after := by
  obtain ⟨record, hRecord, hDecided⟩ := h
  obtain ⟨next, hNext, _, _, _, hPending⟩ := hAdvances.requests _ record hRecord
  exact ⟨next, hNext, fun h => hDecided (hPending h)⟩

theorem Decided.not_pending {requestId : String} {runtime : M3Runtime}
    (h : Decided requestId runtime) : ¬ Pending requestId runtime := by
  rintro ⟨record, hRecord, hPending⟩
  obtain ⟨found, hFound, hDecided⟩ := h
  rw [hRecord, Option.some.injEq] at hFound
  rw [← hFound] at hDecided
  exact hDecided hPending

theorem quarantine_quarantined {runtime : M3Runtime} {credentialId : String}
    {credential : Credential}
    (h : runtime.credential? credentialId = some credential) :
    Quarantined credentialId (quarantine runtime credentialId) := by
  have hId : credential.publicId = credentialId := Table.column_of_lookup h
  refine ⟨{ credential with quarantined := true }, ?_, rfl⟩
  rw [M3Runtime.credential?] at h ⊢
  refine Eq.trans (Table.lookup_update fun _ => rfl) ?_
  rw [h, Option.map_some, if_pos (decide_eq_true hId)]

/-- A forwarded decision settles its request. -/
theorem forward_decided {runtime : M3Runtime} {requestId : String}
    (input : VerifiedBrokerCeremonyInput) (decision : DecisionValue)
    (surroundings : Surroundings) {record : RequestRecord}
    (h : runtime.request? requestId = some record) :
    Decided requestId (forward runtime requestId input decision surroundings) := by
  have hId : record.publicId = requestId := Table.column_of_lookup h
  refine ⟨record.decided decision, ?_, record.decided_projection decision⟩
  rw [M3Runtime.request?] at h ⊢
  refine Eq.trans (Table.lookup_update fun _ => rfl) ?_
  rw [h, Option.map_some, if_pos (decide_eq_true hId)]

/-- What a decision queues is one message with the submission of its ceremony. -/
theorem forward_submissions (runtime : M3Runtime) (requestId : String)
    (input : VerifiedBrokerCeremonyInput) (decision : DecisionValue)
    (surroundings : Surroundings) :
    (forward runtime requestId input decision surroundings).decisionSubmissions =
      runtime.decisionSubmissions ++ [decisionMessage input surroundings] := by
  simp [M3Runtime.decisionSubmissions, forward, decisionMessage]

section

variable [Cryptography] {session : Session} {requestId : String}
  {input : Option VerifiedBrokerCeremonyInput} {surroundings : Surroundings}
  {runtime : M3Runtime}

theorem decisionWithCeremony_rejected {fault : String}
    (h : admitDecision runtime session requestId input surroundings.now =
      .error fault) :
    decisionWithCeremony session requestId input surroundings runtime =
      (.error fault, runtime) :=
  Segment.bind_of_error (Prod.ext h rfl)

theorem decisionWithCeremony_admitted {found : VerifiedBrokerCeremonyInput}
    {ceremony : VerifiedApprovalCeremony}
    (h : admitDecision runtime session requestId input surroundings.now =
      .ok (found, ceremony)) :
    decisionWithCeremony session requestId input surroundings runtime =
      (.ok (.answered (.response (decisionAccepted surroundings.firstId))),
        forward runtime requestId found ceremony.decision surroundings) := by
  have hCheck : (Segment.check fun runtime =>
      admitDecision runtime session requestId input surroundings.now) runtime =
        (Except.ok (found, ceremony), runtime) := Prod.ext h rfl
  exact (Segment.bind_of_ok hCheck).trans rfl

/-- A decision on a request may be forwarded: the request is pending and has time
left, its tenant is that of the session, and the credential is enrolled for the
tenant and the device of the request and not quarantined. -/
def Authorized (runtime : M3Runtime) (session : Session)
    (requestId credentialId : String) (now : Double) : Prop :=
  ∃ record credential, runtime.request? requestId = some record ∧
    record.projection = .pending ∧ record.expiresAt.le now = false ∧
    session.tenantId = record.tenantId ∧
    runtime.credential? credentialId = some credential ∧
    credential.tenantId = record.tenantId ∧
    credential.devicePublicId = record.devicePublicId ∧
    credential.quarantined = false

/-- The checks after the ceremony authorise a decision at an admitted point. -/
theorem admitDecision_authorized {found : VerifiedBrokerCeremonyInput}
    {ceremony : VerifiedApprovalCeremony} {payload : List (String × Json)} {now : Double}
    (hPoint : Admitted (.decisionCeremony session requestId payload) runtime)
    (h : admitDecision runtime session requestId input now =
      .ok (found, ceremony)) :
    input = some found ∧
      Authorized runtime session requestId found.credentialBindingPublicId now := by
  simp only [admitDecision, bind_eq_ok_iff, orFault_eq_ok_iff, pure_eq_ok,
    Except.ok.injEq, Prod.mk.injEq, requirePending, rejectIf_eq_ok_iff] at h
  obtain ⟨_, hInput, _, _, record, hRecord, _, hPending, credential, hCredential, _,
    hEnrolled, _, hQuarantined, _, _, rfl, _⟩ := h
  obtain ⟨held, hHeld, hTenant⟩ := hPoint
  rw [hRecord] at hHeld
  cases hHeld
  simp only [not_or, not_not, Bool.not_eq_true] at hPending hEnrolled
  refine ⟨hInput, record, credential, hRecord, hPending.1, hPending.2, hTenant.symm,
    hCredential, hEnrolled.1.trans hTenant.symm, hEnrolled.2, ?_⟩
  simpa using hQuarantined

end

/-! ### Turns -/

/-- Catching an error keeps what a segment guarantees. -/
theorem caught_guarantees {R : M3Runtime → M3Runtime → Prop}
    {handler : Handler Progress} {runtime : M3Runtime}
    {post : Progress → M3Runtime → Prop}
    (h : Segment.Guarantees R handler runtime post) :
    R runtime (caught (handler runtime)).2 ∧
      ∀ point, (caught (handler runtime)).1 = .suspended point →
        post (.suspended point) (caught (handler runtime)).2 := by
  obtain ⟨hRelated, hPost⟩ := h
  unfold Segment.after at hRelated hPost
  unfold Segment.result at hPost
  cases hRun : handler runtime with
  | mk outcome after =>
      rw [hRun] at hRelated hPost
      cases outcome with
      | error message =>
          refine ⟨hRelated, ?_⟩
          intro point hPoint
          cases hPoint
      | ok progress =>
          refine ⟨hRelated, ?_⟩
          intro point hPoint
          rw [← hPoint]
          exact hPost progress rfl

/-- A trusted call is one segment. -/
theorem finished_guarantees {R : M3Runtime → M3Runtime → Prop}
    {handler : Handler Unit} {runtime : M3Runtime} {post : Unit → M3Runtime → Prop}
    (h : Segment.Guarantees R handler runtime post) :
    R runtime (finished (handler runtime)).2 ∧
      ∀ point, (finished (handler runtime)).1 ≠ .suspended point := by
  obtain ⟨hRelated, _⟩ := h
  unfold Segment.after at hRelated
  cases hRun : handler runtime with
  | mk outcome after =>
      rw [hRun] at hRelated
      cases outcome with
      | error message => exact ⟨hRelated, fun _ hPoint => nomatch hPoint⟩
      | ok value => exact ⟨hRelated, fun _ hPoint => nomatch hPoint⟩

section Turns

variable [Cryptography]

theorem decisionWithCeremony_advances (session : Session) (requestId : String)
    (input : Option VerifiedBrokerCeremonyInput) (surroundings : Surroundings)
    (runtime : M3Runtime) :
    Segment.Guarantees Advances
      (decisionWithCeremony session requestId input surroundings) runtime
      PointAdmitted := by
  unfold Segment.Guarantees Segment.after Segment.result
  cases hChecks : admitDecision runtime session requestId input surroundings.now with
  | error fault =>
      rw [decisionWithCeremony_rejected hChecks]
      refine ⟨Advances.refl runtime, ?_⟩
      intro progress hProgress
      cases hProgress
  | ok admitted =>
      rw [decisionWithCeremony_admitted hChecks]
      refine ⟨forward_advances _ _ _ _ _, ?_⟩
      intro progress hProgress point hPoint
      cases hProgress
      cases hPoint

/-- What is resumed with a ceremony that a verifier gave back. -/
def ResumesDecision (point : Point) (settled : Settled) : Prop :=
  ∃ session requestId payload input,
    point = .decisionCeremony session requestId payload ∧
      settled = .ceremony (some input)

/-- A resumption is quiet unless it brings a ceremony to a decision. -/
theorem proceed_quiet {point : Point} {settled : Settled} (surroundings : Surroundings)
    (runtime : M3Runtime) (h : ¬ ResumesDecision point settled) :
    Quietly (proceed point settled surroundings) runtime
      fun progress state => Admitted point runtime →
        PointAdmitted progress state := by
  have hAlways {handler : Handler Progress}
      (hQuiet : Quietly handler runtime PointAdmitted) :
      Quietly handler runtime fun progress state => Admitted point runtime →
        PointAdmitted progress state :=
    hQuiet.weaken (fun h => h) fun _ _ hPoint _ => hPoint
  unfold proceed
  split
  · exact Segment.Guarantees.throw
  · apply hAlways
    apply Segment.Guarantees.check_bind
    intro _ _
    exact await_quiet trivial
  · exact hAlways (createSessionWithIdentity_quiet _ surroundings)
  · apply hAlways
    apply Segment.Guarantees.check_bind
    intro _ _
    exact await_quiet trivial
  · exact hAlways (relayInboxWithBody_quiet _)
  · apply hAlways
    apply Segment.Guarantees.check_bind
    intro _ _
    apply Segment.Guarantees.check_bind
    intro _ _
    exact respond_quiet _
  · exact hAlways (pairingRouteWithBody_quiet _ _)
  · exact decisionWithBody_quiet _ _ _
  · next session requestId payload input =>
      cases input with
      | none =>
          -- Without a ceremony the checks fail at once.
          apply hAlways
          unfold Quietly Segment.Guarantees Segment.after Segment.result
          rw [decisionWithCeremony_rejected rfl]
          refine ⟨Quiet.refl runtime, ?_⟩
          intro progress hProgress
          cases hProgress
      | some input =>
          exact absurd ⟨session, requestId, payload, input, rfl, rfl⟩ h
  · exact hAlways (revocationRouteWithProof_quiet _ _ _ surroundings)
  · apply Segment.Guarantees.pure
    intro hAdmitted found hFound
    cases hFound
    exact hAdmitted

/-- A resumption advances the runtime, and from an admitted point it suspends at an
admitted one. -/
theorem proceed_advances (point : Point) (settled : Settled)
    (surroundings : Surroundings) (runtime : M3Runtime) :
    Segment.Guarantees Advances (proceed point settled surroundings) runtime
      fun progress state => Admitted point runtime →
        PointAdmitted progress state := by
  by_cases hDecision : ResumesDecision point settled
  · obtain ⟨session, requestId, payload, input, rfl, rfl⟩ := hDecision
    exact (decisionWithCeremony_advances session requestId (some input) surroundings
      runtime).weaken (fun h => h) fun _ _ hPoint _ => hPoint
  · exact (proceed_quiet surroundings runtime hDecision).weaken
      (fun h => h.toAdvances) fun _ _ hPoint => hPoint

/-- A new call is quiet and suspends at an admitted point. -/
theorem enter_quiet (call : Call × Surroundings) (runtime : M3Runtime) :
    Quiet runtime (enter call runtime).2 ∧
      ∀ point, (enter call runtime).1 = .suspended point →
        Admitted point (enter call runtime).2 := by
  have hFinished {handler : Handler Unit}
      (h : Quietly handler runtime fun _ _ => True) :
      Quiet runtime (finished (handler runtime)).2 ∧
        ∀ point, (finished (handler runtime)).1 = .suspended point →
          Admitted point (finished (handler runtime)).2 :=
    ⟨(finished_guarantees h).1, fun point hPoint =>
      absurd hPoint ((finished_guarantees h).2 point)⟩
  obtain ⟨call, surroundings⟩ := call
  cases call with
  | preparePairing input => exact hFinished (preparePairing_quiet input _)
  | confirmPairingFromBroker pairingId nonce brokerPublicKey =>
      exact hFinished (confirmPairingFromBroker_quiet pairingId nonce
        brokerPublicKey _)
  | enrollCredential input => exact hFinished (enrollCredential_quiet input)
  | ingestVerifiedRequest input =>
      exact hFinished (ingestVerifiedRequest_quiet input)
  | ingestVerifiedBrokerReceipt requestPublicId terminalState =>
      exact hFinished (ingestVerifiedBrokerReceipt_quiet requestPublicId
        terminalState)
  | handle request =>
      obtain ⟨hQuiet, hPoint⟩ := caught_guarantees (handle_quiet request surroundings)
      exact ⟨hQuiet, fun point h => hPoint point h point rfl⟩

/-- Every segment advances the runtime and suspends at admitted points. -/
theorem routine_disciplined : Disciplined routine Advances Admitted where
  stable := Admitted.advance
  enter := fun call runtime => (enter_quiet call runtime).1.toAdvances
  resume := fun point settled runtime =>
    (caught_guarantees (proceed_advances point settled.1 settled.2 runtime)).1
  enterAdmitted := fun call runtime => (enter_quiet call runtime).2
  resumeAdmitted := fun point settled runtime next hPoint hNext =>
    (caught_guarantees (proceed_advances point settled.1 settled.2 runtime)).2
      next hNext hPoint next rfl

/-! ### Runs -/

/-- The turn brings a verified ceremony to a decision on a request. -/
def Decides (session : Session) (requestId : String)
    (input : VerifiedBrokerCeremonyInput) (surroundings : Surroundings)
    (service : Service) (turn : Turn) : Prop :=
  ∃ index payload, turn = .resume index (.ceremony (some input), surroundings) ∧
    service.tasks[index]? =
      some (.suspended (.decisionCeremony session requestId payload))

/-- A turn is quiet, or it forwards one authorised decision. -/
theorem turn_cases {service : Service} (hService : service.Admits Admitted)
    (turn : Turn) :
    Quiet service.shared (service.turn turn).shared ∨
      ∃ session requestId input surroundings decision,
        Decides session requestId input surroundings service turn ∧
        Authorized service.shared session requestId
          input.credentialBindingPublicId surroundings.now ∧
        (service.turn turn).shared =
          forward service.shared requestId input decision surroundings := by
  cases turn with
  | enter call => exact .inl (enter_quiet call service.shared).1
  | resume index settled =>
      -- A turn of a task that is not suspended does nothing.
      by_cases hFound : ∃ point, service.tasks[index]? = some (.suspended point)
      swap
      · left
        rw [Service.turn, Scene.step_idle (not_exists.mp hFound)]
        exact Quiet.refl _
      obtain ⟨point, hFound⟩ := hFound
      have hNext : (service.turn (.resume index settled)).shared =
          (caught (proceed point settled.1 settled.2 service.shared)).2 := by
        rw [Service.turn, Scene.step_resume hFound]
        rfl
      rw [hNext]
      by_cases hDecision : ResumesDecision point settled.1
      swap
      · exact .inl (caught_guarantees
          (proceed_quiet settled.2 service.shared hDecision)).1
      obtain ⟨settled, surroundings⟩ := settled
      obtain ⟨session, requestId, payload, input, rfl, rfl⟩ := hDecision
      change Quiet _ (caught (decisionWithCeremony session requestId (some input)
        surroundings service.shared)).2 ∨ ∃ _ _ _ _ _, _ ∧ _ ∧
          (caught (decisionWithCeremony session requestId (some input)
            surroundings service.shared)).2 = _
      -- Only this segment may queue a decision, and only after its checks.
      cases hChecks : admitDecision service.shared session requestId (some input)
          surroundings.now with
      | error fault =>
          left
          rw [decisionWithCeremony_rejected hChecks]
          exact Quiet.refl _
      | ok admitted =>
          right
          obtain ⟨hInput, hAuthorized⟩ := admitDecision_authorized
            (hService _ (List.mem_of_getElem? hFound)) hChecks
          rw [Option.some.injEq] at hInput
          rw [decisionWithCeremony_admitted hChecks, ← hInput]
          rw [← hInput] at hAuthorized
          exact ⟨session, requestId, input, surroundings, admitted.2.decision,
            ⟨index, payload, rfl, hFound⟩, hAuthorized, rfl⟩

/-- The turn forwards a decision: it brings a verified ceremony to it, and what is
queued for the broker changes. -/
def Forwards (session : Session) (requestId : String)
    (input : VerifiedBrokerCeremonyInput) (surroundings : Surroundings)
    (service : Service) (turn : Turn) : Prop :=
  Decides session requestId input surroundings service turn ∧
    (service.turn turn).shared.decisionSubmissions ≠
      service.shared.decisionSubmissions

/-- The turn brings a proof to the revocation of a credential, and something is queued
for the broker. -/
def Revokes (credentialId : String) (service : Service) (turn : Turn) : Prop :=
  ∃ index session devicePublicId proof surroundings,
    turn = .resume index (.proof proof, surroundings) ∧
    service.tasks[index]? =
      some (.suspended (.revocationProof session credentialId devicePublicId)) ∧
    (service.turn turn).shared.relayOutbox ≠ service.shared.relayOutbox

section

variable {session : Session} {requestId : String}
  {input : VerifiedBrokerCeremonyInput} {surroundings : Surroundings}
  {service : Service} {turn : Turn}

omit [Cryptography] in
/-- A turn brings one ceremony to one decision. -/
theorem Decides.unique {session' : Session} {requestId' : String}
    {input' : VerifiedBrokerCeremonyInput} {surroundings' : Surroundings}
    (h : Decides session requestId input surroundings service turn)
    (h' : Decides session' requestId' input' surroundings' service turn) :
    session = session' ∧ requestId = requestId' ∧ input = input' ∧
      surroundings = surroundings' := by
  obtain ⟨index, payload, rfl, hTask⟩ := h
  obtain ⟨index', payload', hTurn, hTask'⟩ := h'
  cases hTurn
  rw [hTask] at hTask'
  cases hTask'
  exact ⟨rfl, rfl, rfl, rfl⟩

/-- A forwarded decision was authorised, and is all that the turn does. -/
theorem Forwards.cases (hService : service.Admits Admitted)
    (h : Forwards session requestId input surroundings service turn) :
    Authorized service.shared session requestId input.credentialBindingPublicId
        surroundings.now ∧
      ∃ decision, (service.turn turn).shared =
        forward service.shared requestId input decision surroundings := by
  obtain ⟨hDecides, hQueued⟩ := h
  cases turn_cases hService turn with
  | inl hQuiet => exact absurd hQuiet.silent hQueued
  | inr hForward =>
      obtain ⟨session', requestId', input', surroundings', decision, hDecides',
        hAuthorized, hNext⟩ := hForward
      obtain ⟨rfl, rfl, rfl, rfl⟩ := hDecides.unique hDecides'
      exact ⟨hAuthorized, decision, hNext⟩

theorem Forwards.decided (hService : service.Admits Admitted)
    (h : Forwards session requestId input surroundings service turn) :
    Decided requestId (service.turn turn).shared := by
  obtain ⟨⟨record, _, hRecord, _⟩, decision, hNext⟩ := h.cases hService
  rw [hNext]
  exact forward_decided input decision surroundings hRecord

/-- A decided request is not forwarded again. -/
theorem Forwards.pending (hService : service.Admits Admitted)
    (h : Forwards session requestId input surroundings service turn) :
    Pending requestId service.shared := by
  obtain ⟨⟨record, _, hRecord, hPending, _⟩, _⟩ := h.cases hService
  exact ⟨record, hRecord, hPending⟩

theorem Forwards.not_quarantined (hService : service.Admits Admitted)
    (h : Forwards session requestId input surroundings service turn) :
    ¬ Quarantined input.credentialBindingPublicId service.shared := by
  obtain ⟨⟨_, credential, _, _, _, _, hCredential, _, _, hUsable⟩, _⟩ :=
    h.cases hService
  rintro ⟨found, hFound, hQuarantined⟩
  rw [hCredential, Option.some.injEq] at hFound
  rw [← hFound, hUsable] at hQuarantined
  cases hQuarantined

/-- A revocation that queues its proof has quarantined the credential before. -/
theorem Revokes.quarantined {credentialId : String}
    (hService : service.Admits Admitted) (h : Revokes credentialId service turn) :
    Quarantined credentialId (service.turn turn).shared := by
  obtain ⟨index, session, devicePublicId, proof, surroundings, rfl, hTask, hQueued⟩ :=
    h
  have hNext : (service.turn (.resume index (.proof proof, surroundings))).shared =
      (caught (revocationRouteWithProof credentialId devicePublicId proof
        surroundings service.shared)).2 := by
    rw [Service.turn, Scene.step_resume hTask]
    rfl
  rw [hNext] at hQueued ⊢
  obtain ⟨credential, hCredential, _⟩ := hService _ (List.mem_of_getElem? hTask)
  cases hProof : requireOpaqueEnvelope proof "revocation proof" with
  | error fault =>
      have hRun : revocationRouteWithProof credentialId devicePublicId proof
          surroundings service.shared = (.error fault, service.shared) :=
        Segment.bind_of_error (Prod.ext hProof rfl)
      rw [hRun] at hQueued
      exact absurd rfl hQueued
  | ok value =>
      -- What follows the quarantine does not lift it.
      have hCheck : (Segment.check fun _ => requireOpaqueEnvelope proof
          "revocation proof") service.shared = (Except.ok value, service.shared) :=
        Prod.ext hProof rfl
      have hRun : revocationRouteWithProof credentialId devicePublicId proof
          surroundings service.shared =
            finishRevocation devicePublicId proof surroundings
              (quarantine service.shared credentialId) :=
        (Segment.bind_of_ok hCheck).trans rfl
      rw [hRun]
      apply Quarantined.advance (caught_guarantees
        (finishRevocation_quiet devicePublicId proof surroundings)).1.toAdvances
      exact quarantine_quarantined hCredential

end

/-! ### The decisions of a run -/

/-- What holds of the decisions that the turns of a run forward. -/
structure Forwarding (officialOrigin : String) (turns : List Turn) : Prop where
  /-- A turn queues no decision, or one message with the submission of a ceremony. -/
  queued : Throughout Service.turn (Service.fresh officialOrigin) turns
    fun service turn =>
      (service.turn turn).shared.decisionSubmissions =
          service.shared.decisionSubmissions ∨
        ∃ session requestId input surroundings message,
          Forwards session requestId input surroundings service turn ∧
          message.payload = input.brokerDecisionSubmission ∧
          (service.turn turn).shared.decisionSubmissions =
            service.shared.decisionSubmissions ++ [message]
  /-- No request has two decisions forwarded. -/
  once : ∀ requestId, AtMostOnce Service.turn (Service.fresh officialOrigin) turns
    fun service turn => ∃ session input surroundings,
      Forwards session requestId input surroundings service turn
  /-- A decision is authorised at the moment it is queued. -/
  authorized : Throughout Service.turn (Service.fresh officialOrigin) turns
    fun service turn => ∀ session requestId input surroundings,
      Forwards session requestId input surroundings service turn →
        Authorized service.shared session requestId input.credentialBindingPublicId
          surroundings.now
  /-- Afterwards its request is never pending again. -/
  settled : ∀ earlier turn later, turns = earlier ++ turn :: later →
    ∀ session requestId input surroundings,
      Forwards session requestId input surroundings
        (run Service.turn (Service.fresh officialOrigin) earlier) turn →
      ¬ Pending requestId
        (run Service.turn (Service.fresh officialOrigin) turns).shared
  /-- A revocation takes effect before its proof is queued. -/
  revokes : Throughout Service.turn (Service.fresh officialOrigin) turns
    fun service turn => ∀ credentialId, Revokes credentialId service turn →
      Quarantined credentialId (service.turn turn).shared
  /-- No decision is made with a credential that was quarantined before. -/
  revoked : ∀ earlier middle turn later,
    turns = (earlier ++ middle) ++ turn :: later →
    ∀ session requestId input surroundings,
      Quarantined input.credentialBindingPublicId
        (run Service.turn (Service.fresh officialOrigin) earlier).shared →
      ¬ Forwards session requestId input surroundings
        (run Service.turn (Service.fresh officialOrigin) (earlier ++ middle)) turn

/-- At every moment of a run, tasks are suspended at admitted points. -/
theorem run_admitted (officialOrigin : String) (turns : List Turn) :
    (run Service.turn (Service.fresh officialOrigin) turns).Admits Admitted := by
  apply routine_disciplined.run_admitted
  intro point hPoint
  cases hPoint

theorem run_advances (service : Service) (turns : List Turn) :
    Advances service.shared (run Service.turn service turns).shared :=
  routine_disciplined.run_related service turns

/-- A request stays decided after a decision on it was forwarded. -/
theorem decided_after_forward {officialOrigin : String} {earlier : List Turn}
    {turn : Turn} {session : Session} {requestId : String}
    {input : VerifiedBrokerCeremonyInput} {surroundings : Surroundings}
    (h : Forwards session requestId input surroundings
      (run Service.turn (Service.fresh officialOrigin) earlier) turn)
    (later : List Turn) :
    Decided requestId (run Service.turn (Service.fresh officialOrigin)
      (earlier ++ turn :: later)).shared := by
  rw [run_append, run_cons]
  exact (h.decided (run_admitted officialOrigin earlier)).advance
    (run_advances _ later)

/-- In every interleaving of calls, a request has at most one decision forwarded; it
is authorised when it is queued, its request is never pending again, and it is not
made with a revoked credential. -/
theorem decisions_forwarded_once (officialOrigin : String) (turns : List Turn) :
    Forwarding officialOrigin turns where
  queued := by
    intro earlier turn later _
    cases turn_cases (run_admitted officialOrigin earlier) turn with
    | inl hQuiet => exact .inl hQuiet.silent
    | inr hForward =>
        obtain ⟨session, requestId, input, surroundings, decision, hDecides, _,
          hNext⟩ := hForward
        have hQueued := forward_submissions
          (run Service.turn (Service.fresh officialOrigin) earlier).shared requestId
          input decision surroundings
        rw [← hNext] at hQueued
        refine .inr ⟨session, requestId, input, surroundings, _,
          ⟨hDecides, ?_⟩, rfl, hQueued⟩
        rw [hQueued]
        simp
  once := by
    intro requestId earlier first between second later _ hFirst hSecond
    obtain ⟨_, _, _, hFirst⟩ := hFirst
    obtain ⟨_, _, _, hSecond⟩ := hSecond
    exact (decided_after_forward hFirst between).not_pending
      (hSecond.pending (run_admitted officialOrigin _))
  authorized := by
    intro earlier turn later _ session requestId input surroundings hForwards
    exact (hForwards.cases (run_admitted officialOrigin earlier)).1
  settled := by
    rintro earlier turn later rfl session requestId input surroundings hForwards
    exact (decided_after_forward hForwards later).not_pending
  revokes := by
    intro earlier turn later _ credentialId hRevokes
    exact hRevokes.quarantined (run_admitted officialOrigin earlier)
  revoked := by
    intro earlier middle turn later _ session requestId input surroundings hBefore
      hForwards
    apply hForwards.not_quarantined (run_admitted officialOrigin _)
    rw [run_append]
    exact hBefore.advance (run_advances _ middle)

end Turns

/-! ### Two decisions at once -/

def sampleSurroundings : Surroundings where
  admittedAt := .finite 1
  now := .finite 1
  firstToken := ByteArr.fill 32 1
  secondToken := ByteArr.fill 32 2
  firstId := ByteArr.fill 16 3
  secondId := ByteArr.fill 16 4

def sampleRequest (pathname : String) : Request where
  method := "POST"
  pathname
  origin := some "https://rootpermit.example"
  csrf := some (randomToken sampleSurroundings.secondToken)
  cookie := some ("rp_session=" ++ randomToken sampleSurroundings.firstToken)

def sampleInput (decision : String) : VerifiedBrokerCeremonyInput where
  credentialBindingPublicId := "AwMDAwMDAwMDAwMDAwMDAw"
  assertionBytes := [1, 2, 3]
  decision
  brokerDecisionSubmission := [0xd2, 1]

/-- A device is paired, a credential enrolled, and two ceremonies for one request run
at the same time. -/
def concurrentDecisions : List Turn :=
  let enter (call : Call) : Turn := .enter (call, sampleSurroundings)
  let settle (index : Nat) (settled : Settled) : Turn :=
    .resume index (settled, sampleSurroundings)
  let decisions := "/v1/requests/AgICAgICAgICAgICAgICAg/decisions"
  [enter (.handle (sampleRequest "/v1/account/session")),
    settle 0 (.body (.object [("email", .string "a@example.test"),
      ("password", .string "correct")])),
    settle 0 (.identity (some { tenantId := "tenant", accountId := "account" })),
    enter (.preparePairing
      { pairingId := "AAAAAAAAAAAAAAAAAAAAAA"
        devicePublicId := "AQEBAQEBAQEBAQEBAQEBAQ"
        brokerPublicKey := List.replicate 32 1, nonce := List.replicate 32 2
        comparisonCode := "123456", expiresAt := .finite 100 }),
    enter (.handle (sampleRequest "/v1/pairings/AAAAAAAAAAAAAAAAAAAAAA/claim")),
    enter (.handle (sampleRequest "/v1/pairings/AAAAAAAAAAAAAAAAAAAAAA/confirm")),
    settle 3 (.body (.object [("comparisonCode", .string "123456")])),
    enter (.confirmPairingFromBroker "AAAAAAAAAAAAAAAAAAAAAA"
      (List.replicate 32 2) (List.replicate 32 1)),
    enter (.enrollCredential
      { publicId := "AwMDAwMDAwMDAwMDAwMDAw", tenantId := "tenant"
        devicePublicId := "AQEBAQEBAQEBAQEBAQEBAQ", generation := .integer 1 }),
    enter (.ingestVerifiedRequest
      { publicId := "AgICAgICAgICAgICAgICAg", tenantId := "tenant"
        devicePublicId := "AQEBAQEBAQEBAQEBAQEBAQ", envelope := [0xd2]
        expiresAt := .finite 100 }),
    enter (.handle (sampleRequest decisions)),
    enter (.handle (sampleRequest decisions)),
    settle 7 (.body (.object [])), settle 8 (.body (.object [])),
    settle 8 (.ceremony (some (sampleInput "deny"))),
    settle 7 (.ceremony (some (sampleInput "approve")))]

/-- The status of a response. -/
def statusOf : Option Progress → Option Nat
  | some (.answered (.response response)) => some response.status
  | _ => none

example :
    let service := run (@Service.turn keyedHashCryptography)
      (Service.fresh "https://rootpermit.example") concurrentDecisions
    service.shared.decisionSubmissions.length = 1 ∧
      (service.shared.request? "AgICAgICAgICAgICAgICAg").map
        RequestRecord.projection = some .denied ∧
      statusOf service.tasks[7]? = some 409 ∧ statusOf service.tasks[8]? = some 202 := by
  decide +kernel

end M3
end Hosted
end RootPermit
