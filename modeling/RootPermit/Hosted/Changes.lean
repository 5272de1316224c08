import RootPermit.Hosted.Updates

/-!
# The changes of the runtime

Whatever a segment does, it is a sequence of single changes, each with what its segment
has checked before (`Change`).  So an invariant of the runtime is an invariant of every
run as soon as each change preserves it (`run_changes`).
-/

namespace RootPermit
namespace Hosted
namespace M3

open Foundation

/-- An envelope that neither side of the relay opens. -/
def IsOpaqueEnvelope (payload : Bytes) : Prop :=
  1 ≤ payload.length ∧ payload.length ≤ MAX_RELAY_BYTES

/-- The key under which a message is stored in the inbox. -/
def RelayMessage.inboxKey (message : RelayMessage) : String :=
  message.envelopeId ++ ":" ++ message.idempotencyKey

/-- What is stored of a message from the broker. -/
structure RelayMessage.Incoming (message : RelayMessage) : Prop where
  direction : message.direction = .brokerToService
  envelopeId : Broker.isPublicId message.envelopeId = true
  payload : IsOpaqueEnvelope message.payload

/-- What is queued for the broker. -/
structure RelayMessage.Outgoing (message : RelayMessage) : Prop where
  direction : message.direction = .serviceToBroker
  kind : message.kind.isSome = true
  payload : IsOpaqueEnvelope message.payload

/-- The message with these fields. -/
def RelayMessage.fromBroker : String × String × Bytes → RelayMessage
  | (envelopeId, idempotencyKey, payload) =>
      { direction := .brokerToService, kind := none, envelopeId, idempotencyKey
        payload }

/-- The body of a request is this message for the inbox. -/
def Carries (body : Json) (message : RelayMessage) : Prop :=
  ∃ fields, inboxFields body = .ok fields ∧ message = .fromBroker fields

/-- The turn brings a message for the inbox, after its relay was authenticated. -/
def Delivers (message : RelayMessage) (service : Service) (turn : Turn) : Prop :=
  ∃ index body surroundings, turn = .resume index (.body body, surroundings) ∧
    service.tasks[index]? = some (.suspended .relayInboxBody) ∧
    Carries body message

/-- The session of a sign-in of this account. -/
def Session.opened (account : AccountIdentity) (surroundings : Surroundings) : Session where
  toAccountIdentity := account
  token := randomToken surroundings.firstToken
  csrfToken := randomToken surroundings.secondToken
  expiresAt := surroundings.now.add SESSION_TTL_MS

/-- The turn signs an account in, and this is its session. -/
def Opens (session : Session) (service : Service) (turn : Turn) : Prop :=
  ∃ index email password account surroundings,
    turn = .resume index (.identity (some account), surroundings) ∧
    service.tasks[index]? = some (.suspended (.sessionIdentity email password)) ∧
    session = .opened account surroundings

/-- The request that is stored of an input. -/
def RequestInput.record (input : RequestInput) : RequestRecord where
  publicId := input.publicId
  tenantId := input.tenantId
  devicePublicId := input.devicePublicId
  envelope := input.envelope
  expiresAt := input.expiresAt
  projection := .pending

/-- The turn brings a request from the broker. -/
def Sends (input : RequestInput) (turn : Turn) : Prop :=
  ∃ surroundings, turn = .enter (.ingestVerifiedRequest input, surroundings)

/-- The turn brings a ceremony to a decision on the request, or a receipt for it. -/
def Concludes (requestId : String) (service : Service) (turn : Turn) : Prop :=
  (∃ session input surroundings,
    Decides session requestId input surroundings service turn) ∨
  ∃ terminalState surroundings,
    turn = .enter (.ingestVerifiedBrokerReceipt requestId terminalState, surroundings)

/-- What can come into the runtime from outside. -/
inductive Arrival where
  | message (message : RelayMessage)
  | session (session : Session)
  | request (input : RequestInput)
  | conclusion (requestId : String)

/-- What a turn brings into the runtime. -/
def Brings (service : Service) (turn : Turn) : Arrival → Prop
  | .message message => Delivers message service turn
  | .session session => Opens session service turn
  | .request input => Sends input turn
  | .conclusion requestId => Concludes requestId service turn

/-- One change of the runtime; a message for the inbox, a session, a request or what
concludes one is stored only if it has arrived. -/
inductive Change (Arrives : Arrival → Prop) (before : M3Runtime) : M3Runtime → Prop where
  | session (session : Session) (hOpened : Arrives (.session session)) :
      Change Arrives before
      { before with sessions := Table.put Session.token session before.sessions }
  | pairings (pairings : List Pairing) : Change Arrives before { before with pairings }
  | activate (device : Device) (hActive : device.enrollmentState = .active) :
      Change Arrives before
      { before with devices := Table.put Device.publicId device before.devices }
  | lock (devicePublicId : String) (hNone : before.usable devicePublicId = []) :
      Change Arrives before
      { before with
        devices := Table.update
          (fun device => decide (device.publicId = devicePublicId))
          (fun device => { device with enrollmentState := .approvalLocked })
          before.devices }
  | enroll (credential : Credential) (device : Device)
      (hNew : before.credential? credential.publicId = none)
      (hDevice : before.device? credential.devicePublicId = some device)
      (hActive : device.enrollmentState = .active)
      (hLimit : (before.usable credential.devicePublicId).length < 5) :
      Change Arrives before
      { before with
        credentials := Table.put Credential.publicId credential before.credentials }
  | quarantine (credentialId : String) : Change Arrives before (quarantine before credentialId)
  | ingest (input : RequestInput) (hSent : Arrives (.request input))
      (hNew : before.request? input.publicId = none)
      (hEnvelope : IsOpaqueEnvelope input.envelope) :
      Change Arrives before
      { before with
        requests := Table.put RequestRecord.publicId input.record before.requests }
  | project (requestId : String) (projection : RequestProjection)
      (hConcluded : Arrives (.conclusion requestId)) :
      Change Arrives before
      { before with
        requests := Table.update (fun record => decide (record.publicId = requestId))
          (fun record => { record with projection }) before.requests }
  | inbox (message : RelayMessage) (hMail : Arrives (.message message))
      (hNew : Table.lookup Prod.fst message.inboxKey before.relayInbox = none)
      (hIncoming : message.Incoming) :
      Change Arrives before
      { before with
        relayInbox := Table.put Prod.fst (message.inboxKey, message) before.relayInbox }
  | outbox (message : RelayMessage) (hOutgoing : message.Outgoing) :
      Change Arrives before { before with relayOutbox := before.relayOutbox ++ [message] }

abbrev Changes (Arrives : Arrival → Prop) : M3Runtime → M3Runtime → Prop :=
  Relation.ReflTransGen (Change Arrives)

instance (Arrives : Arrival → Prop) : IsPreorder M3Runtime (Changes Arrives) where
  refl _ := .refl
  trans _ _ _ := .trans

theorem Changes.mono {Arrives More : Arrival → Prop} {before after : M3Runtime}
    (h : Changes Arrives before after) (hMore : ∀ arrival, Arrives arrival → More arrival) :
    Changes More before after := by
  refine Relation.ReflTransGen.mono ?_ _ _ h
  intro first second hChange
  cases hChange with
  | session session hOpened => exact .session session (hMore _ hOpened)
  | pairings pairings => exact .pairings pairings
  | activate device hActive => exact .activate device hActive
  | lock devicePublicId hNone => exact .lock devicePublicId hNone
  | enroll credential device hNew hDevice hActive hLimit =>
      exact .enroll credential device hNew hDevice hActive hLimit
  | quarantine credentialId => exact .quarantine credentialId
  | ingest input hSent hNew hEnvelope => exact .ingest input (hMore _ hSent) hNew hEnvelope
  | project requestId projection hConcluded =>
      exact .project requestId projection (hMore _ hConcluded)
  | inbox message hMail hNew hIncoming =>
      exact .inbox message (hMore _ hMail) hNew hIncoming
  | outbox message hOutgoing => exact .outbox message hOutgoing

/-- What every change preserves, all changes together preserve. -/
theorem Changes.preserve {Arrives : Arrival → Prop} {I : M3Runtime → Prop}
    {before after : M3Runtime} (h : Changes Arrives before after)
    (hChange : ∀ {first second}, Change Arrives first second → I first → I second)
    (hBefore : I before) : I after := by
  induction h with
  | refl => exact hBefore
  | tail _ hLast ih => exact hChange hLast ih

/-! ### The segments -/

section Segments

variable {Arrives : Arrival → Prop} {runtime : M3Runtime}

/-- From this state the segment makes changes. -/
def Changing (Arrives : Arrival → Prop) {α : Type} (handler : Handler α)
    (runtime : M3Runtime) : Prop :=
  Segment.Guarantees (Changes Arrives) handler runtime fun _ _ => True

theorem respond_changing (response : Response) : Changing Arrives (respond response) runtime :=
  Segment.Guarantees.pure trivial

theorem await_changing (point : Point) : Changing Arrives (await point) runtime :=
  Segment.Guarantees.pure trivial

theorem requireCsrf_changing (request : Request) (session : Session) :
    Changing Arrives (requireCsrf request session) runtime := by
  apply Segment.Guarantees.check_bind
  intro _ _
  exact Segment.Guarantees.check fun _ _ => trivial

theorem requireOpaqueEnvelope_eq_ok_iff {value : Bytes} {name : String} {result : Unit} :
    requireOpaqueEnvelope value name = .ok result ↔ IsOpaqueEnvelope value := by
  rw [requireOpaqueEnvelope, rejectIf_eq_ok_iff, not_or, not_lt, not_lt]
  rfl

/-- Of an opaque envelope a message for the broker is queued. -/
theorem queueOpaqueToBroker_changing (kind : RelayKind) {payload : Bytes}
    (hPayload : IsOpaqueEnvelope payload) (envelopeId : ByteArr 16)
    (idempotencyKey : ByteArr 32) :
    Changing Arrives (queueOpaqueToBroker kind payload envelopeId idempotencyKey) runtime :=
  Segment.Guarantees.change (.single (.outbox _ ⟨rfl, rfl, hPayload⟩)) trivial

/-! #### Sessions and pairings -/

theorem createSessionWithIdentity_changing {identity : Option AccountIdentity}
    {surroundings : Surroundings}
    (hOpened : ∀ account ∈ identity, Arrives (.session (.opened account surroundings))) :
    Changing Arrives (createSessionWithIdentity identity surroundings) runtime := by
  cases identity with
  | none => exact respond_changing _
  | some identity =>
      apply Segment.Guarantees.change_bind
      · exact .single (.session _ (hOpened identity rfl))
      · exact respond_changing _

theorem updatePairing_changing (pairingId : String) (change : Pairing → Pairing) :
    Changing Arrives (updatePairing pairingId change) runtime :=
  Segment.Guarantees.change (.single (.pairings _)) trivial

/-- A refusal that uses the pairing up. -/
theorem refuse_changing {α : Type} (pairingId message : String)
    (change : Pairing → Pairing) :
    Changing Arrives (do updatePairing pairingId change; (throw message : Handler α))
      runtime := by
  apply (updatePairing_changing pairingId change).bind
  intro _ _ _
  exact Segment.Guarantees.throw

theorem livePairing_changing (pairingId : String) (now : Double) :
    Changing Arrives (livePairing pairingId now) runtime := by
  apply Segment.Guarantees.check_bind
  intro found _
  cases found with
  | none => exact Segment.Guarantees.throw
  | some pairing =>
      apply Segment.Guarantees.ite
      · intro _
        exact refuse_changing pairingId _ _
      · intro _
        exact Segment.Guarantees.pure trivial

theorem tryActivate_changing (pairingId : String) :
    Changing Arrives (tryActivate pairingId) runtime := by
  apply Segment.Guarantees.check_bind
  intro pairing _
  cases pairing.claimedBy with
  | none => exact Segment.Guarantees.pure trivial
  | some account =>
      apply Segment.Guarantees.ite
      · intro _
        apply Segment.Guarantees.change_bind
        · exact .single (.activate _ rfl)
        · exact updatePairing_changing pairingId _
      · intro _
        exact Segment.Guarantees.pure trivial

theorem pairingRoute_changing (session : Session) (pairingId action : String)
    (request : Request) (now : Double) :
    Changing Arrives (pairingRoute session pairingId action request now) runtime := by
  apply (requireCsrf_changing request session).bind
  intro _ _ _
  apply (livePairing_changing pairingId now).bind
  intro pairing _ _
  apply Segment.Guarantees.ite
  · intro _
    apply Segment.Guarantees.check_bind
    intro _ _
    apply (updatePairing_changing pairingId _).bind
    intro _ _ _
    exact respond_changing _
  · intro _
    apply Segment.Guarantees.check_bind
    intro _ _
    exact await_changing _

section

variable [Cryptography]

theorem preparePairing_changing (input : PairingInput) (now : Double) :
    Changing Arrives (preparePairing input now) runtime := by
  iterate 6
    apply Segment.Guarantees.check_bind
    intro _ _
  exact Segment.Guarantees.change (.single (.pairings _)) trivial

theorem confirmPairingFromBroker_changing (pairingId : String)
    (nonce brokerPublicKey : Bytes) (now : Double) :
    Changing Arrives (confirmPairingFromBroker pairingId nonce brokerPublicKey now)
      runtime := by
  apply (livePairing_changing pairingId now).bind
  intro pairing _ _
  apply Segment.Guarantees.ite
  · intro _
    exact refuse_changing pairingId _ _
  · intro _
    apply (updatePairing_changing pairingId _).bind
    intro _ _ _
    exact tryActivate_changing pairingId

theorem pairingRouteWithBody_changing (pairingId : String) (body : Json) :
    Changing Arrives (pairingRouteWithBody pairingId body) runtime := by
  apply Segment.Guarantees.check_bind
  intro code _
  apply Segment.Guarantees.check_bind
  intro pairing _
  apply Segment.Guarantees.ite
  · intro _
    exact refuse_changing pairingId _ _
  · intro _
    apply (updatePairing_changing pairingId _).bind
    intro _ _ _
    apply (tryActivate_changing pairingId).bind
    intro _ _ _
    apply Segment.Guarantees.check_bind
    intro _ _
    exact respond_changing _

end

/-! #### Credentials -/

theorem enrollCredential_changing (input : CredentialInput) :
    Changing Arrives (enrollCredential input) runtime := by
  apply Segment.Guarantees.check_bind
  intro _ _
  apply Segment.Guarantees.check_bind
  intro _ hDevice
  apply Segment.Guarantees.check_bind
  intro _ _
  apply Segment.Guarantees.check_bind
  intro _ hLimit
  rw [rejectIf_eq_ok_iff, not_not] at hDevice
  rw [rejectIf_eq_ok_iff, not_or, not_le] at hLimit
  obtain ⟨device, hFound, -, hActive⟩ := hDevice
  have hNew : runtime.credential? input.publicId = none := by
    simpa using hLimit.2
  exact Segment.Guarantees.change
    (.single (.enroll _ device hNew hFound hActive hLimit.1)) trivial

theorem revocationRoute_changing (session : Session) (credentialId : String)
    (request : Request) :
    Changing Arrives (revocationRoute session credentialId request) runtime := by
  apply (requireCsrf_changing request session).bind
  intro _ _ _
  apply Segment.Guarantees.check_bind
  intro _ _
  exact await_changing _

/-- A device is locked when none of its credentials is usable. -/
theorem lockDevice_changing {devicePublicId : String} {remaining : Nat}
    (hRemaining : remaining = (runtime.usable devicePublicId).length) :
    Changing Arrives (lockDevice devicePublicId remaining) runtime := by
  apply Segment.Guarantees.ite
  · intro hNone
    apply Segment.Guarantees.check_bind
    intro _ _
    have hUsable : runtime.usable devicePublicId = [] := by
      rw [← List.length_eq_zero_iff, ← hRemaining, hNone]
    exact Segment.Guarantees.change (.single (.lock devicePublicId hUsable)) trivial
  · intro _
    exact Segment.Guarantees.pure trivial

theorem revocationRouteWithProof_changing (credentialId devicePublicId : String)
    (proof : Bytes) (surroundings : Surroundings) :
    Changing Arrives (revocationRouteWithProof credentialId devicePublicId proof surroundings)
      runtime := by
  apply Segment.Guarantees.check_bind
  intro _ hProof
  rw [requireOpaqueEnvelope_eq_ok_iff] at hProof
  apply Segment.Guarantees.change_bind
  · exact .single (.quarantine credentialId)
  apply Segment.Guarantees.check_bind
  intro remaining hRemaining
  apply (lockDevice_changing (Except.ok.inj hRemaining).symm).bind
  intro _ _ _
  apply (queueOpaqueToBroker_changing _ hProof _ _).bind
  intro _ _ _
  apply Segment.Guarantees.check_bind
  intro _ _
  exact respond_changing _

/-! #### Requests -/

theorem ingestVerifiedRequest_changing {input : RequestInput}
    (hSent : Arrives (.request input)) :
    Changing Arrives (ingestVerifiedRequest input) runtime := by
  apply Segment.Guarantees.check_bind
  intro _ _
  apply Segment.Guarantees.check_bind
  intro _ hChecks
  rw [rejectIf_eq_ok_iff, not_or, not_or, not_lt, not_lt] at hChecks
  apply Segment.Guarantees.check_bind
  intro existing hExisting
  cases existing with
  | some existing =>
      apply Segment.Guarantees.ite
      · intro _
        exact Segment.Guarantees.pure trivial
      · intro _
        exact Segment.Guarantees.throw
  | none =>
      have hNew : runtime.request? input.publicId = none := Except.ok.inj hExisting
      exact Segment.Guarantees.change (.single (.ingest input hSent hNew hChecks.2)) trivial

theorem ingestVerifiedBrokerReceipt_changing {requestPublicId : String}
    (terminalState : TerminalState) (hConcluded : Arrives (.conclusion requestPublicId)) :
    Changing Arrives (ingestVerifiedBrokerReceipt requestPublicId terminalState) runtime := by
  apply Segment.Guarantees.check_bind
  intro _ _
  exact Segment.Guarantees.change (.single (.project _ _ hConcluded)) trivial

theorem requestRoute_changing (session : Session) (requestId : String)
    (suffix : Option String) (request : Request) (now : Double) :
    Changing Arrives (requestRoute session requestId suffix request now) runtime := by
  apply Segment.Guarantees.check_bind
  intro record _
  apply Segment.Guarantees.ite
  · intro _
    exact respond_changing _
  intro _
  apply Segment.Guarantees.ite
  · intro _
    exact respond_changing _
  intro _
  apply Segment.Guarantees.ite
  · intro _
    apply (requireCsrf_changing request session).bind
    intro _ _ _
    apply Segment.Guarantees.check_bind
    intro _ _
    exact await_changing _
  · intro _
    exact Segment.Guarantees.throw

/-- The submission of a decision has passed its check. -/
theorem decisionWithCeremony_changing [Cryptography] (session : Session)
    {requestId : String} {input : Option VerifiedBrokerCeremonyInput}
    (surroundings : Surroundings)
    (hConcluded : ∀ found ∈ input, Arrives (.conclusion requestId)) :
    Changing Arrives (decisionWithCeremony session requestId input surroundings) runtime := by
  apply Segment.Guarantees.check_bind
  rintro ⟨found, ceremony⟩ hAdmitted
  simp only [admitDecision, bind_eq_ok_iff, pure_eq_ok, Except.ok.injEq, Prod.mk.injEq,
    orFault_eq_ok_iff, requireOpaqueEnvelope_eq_ok_iff] at hAdmitted
  obtain ⟨_, hInput, _, hEnvelope, _, _, _, _, _, _, _, _, _, _, _, _, rfl, _⟩ := hAdmitted
  apply (queueOpaqueToBroker_changing _ hEnvelope _ _).bind
  intro _ _ _
  apply Segment.Guarantees.change_bind
  · exact .single (.project _ _ (hConcluded _ hInput))
  · exact respond_changing _

/-! #### The relay -/

/-- What is stored of a message has passed the checks of its fields. -/
theorem Carries.incoming {body : Json} {message : RelayMessage}
    (h : Carries body message) : message.Incoming := by
  obtain ⟨⟨envelopeId, idempotencyKey, payload⟩, hFields, rfl⟩ := h
  simp only [inboxFields, bind_eq_ok_iff, pure_eq_ok, Except.ok.injEq, Prod.mk.injEq,
    requirePublicId, rejectIf_eq_ok_iff, Bool.not_eq_false, base64UrlField, not_or,
    not_lt] at hFields
  obtain ⟨_, _, _, _, _, _, _, ⟨_, _, _, _, _, hLength, rfl⟩, _, hId, rfl, _, rfl⟩ :=
    hFields
  exact ⟨rfl, hId, hLength⟩

/-- The runtime after a message for the inbox: a repeated one is dropped. -/
def M3Runtime.store (runtime : M3Runtime) (message : RelayMessage) : M3Runtime :=
  if (Table.lookup Prod.fst message.inboxKey runtime.relayInbox).isSome = true then
    runtime
  else
    { runtime with
      relayInbox := Table.put Prod.fst (message.inboxKey, message) runtime.relayInbox }

def inboxAccepted : Response where
  status := 202
  headers := secureHeaders
  body := none

theorem relayInboxWithBody_of_ok {body : Json} {fields : String × String × Bytes}
    (h : inboxFields body = .ok fields) :
    relayInboxWithBody body runtime =
      (.ok (.answered (.response inboxAccepted)),
        runtime.store (.fromBroker fields)) := by
  refine (Segment.check_bind_of_ok (?_ : _ = Except.ok fields)).trans ?_
  · exact h
  · rfl

theorem relayInboxWithBody_changing {body : Json}
    (hMail : ∀ message, Carries body message → Arrives (.message message)) :
    Changing Arrives (relayInboxWithBody body) runtime := by
  apply Segment.Guarantees.check_bind
  intro fields hFields
  have hCarries : Carries body (.fromBroker fields) := ⟨fields, hFields, rfl⟩
  apply Segment.Guarantees.change_bind
  · split
    · exact .refl
    · next hAbsent =>
        exact .single (.inbox (.fromBroker fields) (hMail _ hCarries)
          (Option.not_isSome_iff_eq_none.mp hAbsent) hCarries.incoming)
  · exact respond_changing _

theorem relayOutboxRoute_changing (authenticated : Bool) :
    Changing Arrives (relayOutboxRoute authenticated) runtime := by
  apply Segment.Guarantees.check_bind
  intro _ _
  apply Segment.Guarantees.check_bind
  intro _ _
  exact respond_changing _

/-! #### All segments -/

theorem sessionRoutes_changing (session : Session) (request : Request) (now : Double) :
    Changing Arrives (sessionRoutes session request now) runtime := by
  apply Segment.Guarantees.ite
  · intro _
    apply Segment.Guarantees.check_bind
    intro _ _
    exact respond_changing _
  intro _
  split
  · exact pairingRoute_changing session _ _ request now
  · split
    · exact requestRoute_changing session _ _ request now
    · split
      · exact revocationRoute_changing session _ request
      · exact respond_changing _

theorem handle_changing (request : Request) (surroundings : Surroundings) :
    Changing Arrives (handle request surroundings) runtime := by
  apply Segment.Guarantees.ite
  · intro _
    apply Segment.Guarantees.check_bind
    intro _ _
    exact await_changing _
  intro _
  apply Segment.Guarantees.ite
  · intro _
    exact await_changing _
  intro _
  apply Segment.Guarantees.ite
  · intro _
    exact await_changing _
  intro _
  apply Segment.Guarantees.check_bind
  intro session _
  exact sessionRoutes_changing session request surroundings.now

theorem proceed_changing [Cryptography] (point : Point) (settled : Settled)
    (surroundings : Surroundings)
    (hMail : ∀ body message, point = .relayInboxBody → settled = .body body →
      Carries body message → Arrives (.message message))
    (hOpened : ∀ email password account, point = .sessionIdentity email password →
      settled = .identity (some account) →
      Arrives (.session (.opened account surroundings)))
    (hConcluded : ∀ session requestId payload input,
      point = .decisionCeremony session requestId payload →
      settled = .ceremony (some input) → Arrives (.conclusion requestId)) :
    Changing Arrives (proceed point settled surroundings) runtime := by
  unfold proceed
  split
  · exact Segment.Guarantees.throw
  · apply Segment.Guarantees.check_bind
    intro _ _
    exact await_changing _
  · refine createSessionWithIdentity_changing ?_
    rintro account ⟨⟩
    exact hOpened _ _ account rfl rfl
  · apply Segment.Guarantees.check_bind
    intro _ _
    exact await_changing _
  · exact relayInboxWithBody_changing fun message => hMail _ message rfl rfl
  · exact relayOutboxRoute_changing _
  · exact pairingRouteWithBody_changing _ _
  · apply Segment.Guarantees.check_bind
    intro _ _
    exact await_changing _
  · refine decisionWithCeremony_changing _ surroundings ?_
    rintro input ⟨⟩
    exact hConcluded _ _ _ input rfl rfl
  · exact revocationRouteWithProof_changing _ _ _ surroundings
  · exact await_changing _

end Segments

/-! ### Turns -/

section Turns

variable [Cryptography]

theorem enter_changes (service : Service) (call : Call × Surroundings) :
    Changes (Brings service (.enter call)) service.shared
      (enter call service.shared).2 := by
  obtain ⟨call, surroundings⟩ := call
  cases call with
  | preparePairing input =>
      exact (finished_guarantees (preparePairing_changing input surroundings.now)).1
  | confirmPairingFromBroker pairingId nonce brokerPublicKey =>
      exact (finished_guarantees (confirmPairingFromBroker_changing pairingId nonce
        brokerPublicKey surroundings.now)).1
  | enrollCredential input =>
      exact (finished_guarantees (enrollCredential_changing input)).1
  | ingestVerifiedRequest input =>
      exact (finished_guarantees (ingestVerifiedRequest_changing ⟨surroundings, rfl⟩)).1
  | ingestVerifiedBrokerReceipt requestPublicId terminalState =>
      exact (finished_guarantees (ingestVerifiedBrokerReceipt_changing terminalState
        (.inr ⟨terminalState, surroundings, rfl⟩))).1
  | handle request => exact (caught_guarantees (handle_changing request surroundings)).1

/-- Every turn makes changes, and it stores nothing but what it brings. -/
theorem turn_changes (service : Service) (turn : Turn) :
    Changes (Brings service turn) service.shared
      (service.turn turn).shared := by
  cases turn with
  | enter call => exact enter_changes service call
  | resume index settled =>
      by_cases hFound : ∃ point, service.tasks[index]? = some (.suspended point)
      · obtain ⟨point, hPoint⟩ := hFound
        obtain ⟨settled, surroundings⟩ := settled
        rw [Service.turn, Scene.step_resume hPoint]
        refine (caught_guarantees (proceed_changing point settled surroundings ?_ ?_ ?_)).1
        · rintro body message rfl rfl hCarries
          exact ⟨index, body, surroundings, rfl, hPoint, hCarries⟩
        · rintro email password account rfl rfl
          exact ⟨index, email, password, account, surroundings, rfl, hPoint, rfl⟩
        · rintro session requestId payload input rfl rfl
          exact .inl ⟨session, input, surroundings, index, payload, rfl, hPoint⟩
      · rw [Service.turn, Scene.step_idle (not_exists.mp hFound)]

theorem run_changes (service : Service) (turns : List Turn) :
    Changes (fun _ => True) service.shared (run Service.turn service turns).shared :=
  run_related
    (R := fun first second : Service => Changes (fun _ => True) first.shared second.shared)
    (fun _ => .refl) (fun hFirst hSecond => hFirst.trans hSecond)
    (fun service turn => (turn_changes service turn).mono fun _ _ => trivial) service
    turns

end Turns

end M3
end Hosted
end RootPermit
