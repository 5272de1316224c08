import RootPermit.Broker.Soundness

/-!
# Authenticity of decisions

A request should be approved or denied only by a WebAuthn submission that was
verified while the request was pending.  The decision path does that.  The generic
transitions do not: they accept the edges from pending to approved and to denied
from any caller (`approved_without_submission`).  In a run in which they are not
used for a decision, every decision was verified (`decisions_verified`).
-/

namespace RootPermit
namespace Broker

open Foundation Protocol WebAuthn

/-- The call submits a decision about the request that is verified while the
request is pending. -/
def VerifiedDecision [Cryptography] (requestId : PublicId) (decision : Decision)
    (store : BrokerStore) (call : Call) : Prop :=
  ∃ (attempt : DecisionAttempt) (signer : BrokerSigningKey) (entropy : Entropy)
    (context : ApprovalContext) (credentials : List PinnedCredential)
    (verified : VerifiedAssertion),
    call = .applyWebauthnSubmission attempt signer entropy ∧
    attempt.requestId = requestId ∧
    requestState requestId store.database.toTables = some .pending ∧
    attempt.context store.deviceIdBytes store.database.toTables
      store.database.toTables = .ok context ∧
    pinnedCredentials context.generation store.database.toTables =
      .ok credentials ∧
    verifySubmission attempt.verifier context credentials attempt.submission =
      .ok verified ∧
    verified.decision = decision

/-- The states that only an approved request reaches. -/
def AFTER_APPROVAL : List RequestState :=
  [.executing, .recoveryRequired, .succeeded, .failed]

/-- After the calls, every approval and every denial goes back to a verified
decision. -/
def DecisionsVerified [Cryptography] (calls : List Call) : Prop :=
  let store := run BrokerStore.step BrokerStore.empty calls
  ∀ requestId row, store.database.request? requestId = some row →
    ((∃ chain, events requestId store.database.toTables = .ok chain ∧
        ∃ event ∈ chain, event.state = .approved) ∨ row.state ∈ AFTER_APPROVAL →
      Occurs BrokerStore.step BrokerStore.empty calls
        (VerifiedDecision requestId .approve)) ∧
    (row.state = .denied →
      Occurs BrokerStore.step BrokerStore.empty calls
        (VerifiedDecision requestId .deny))

/-- The call uses a generic transition to approve or deny a pending request. -/
def BypassesDecision (store : BrokerStore) (call : Call) : Prop :=
  (∃ requestId, requestState requestId store.database.toTables = some .pending ∧
    call = .transitionNonterminal requestId .pending .approved) ∨
  (∃ requestId signer nowUtc entropy,
    requestState requestId store.database.toTables = some .pending ∧
    call = .transitionTerminal requestId .pending .denied signer nowUtc entropy)

/-! ### The edges into a decision -/

section Edges

variable [Cryptography] {deviceIdBytes : ByteArr 16} {snapshots : Snapshots}
  {before : Tables} {requestId : PublicId} {call : Call}
  {source target : RequestState} {reason : TransitionReason}

/-- The decision path moves a pending request to `target`. -/
def DecidesTo (deviceIdBytes : ByteArr 16) (snapshots : Snapshots)
    (requestId : PublicId) (call : Call) (decision : Decision) : Prop :=
  ∃ attempt signer entropy context verified,
    call = .applyWebauthnSubmission attempt signer entropy ∧
    attempt.requestId = requestId ∧
    attempt.read deviceIdBytes snapshots = .ok (.decided context verified) ∧
    verified.decision = decision

omit [Cryptography] in
theorem decidedState_injective {first second : Decision}
    (h : decidedState first = decidedState second) : first = second := by
  cases first <;> cases second <;> first | rfl | cases h

/-- A request is decided while it is pending: by the decision path, or by a generic
transition, which is a terminal one exactly when the request is denied. -/
theorem Drives.to_decided {decision : Decision}
    (h : Drives deviceIdBytes snapshots before requestId call source target reason)
    (hTarget : target = decidedState decision) :
    source = .pending ∧
      ((target.isTerminal = false ∧
          call = .transitionNonterminal requestId .pending target) ∨
        (target.isTerminal = true ∧ ∃ signer nowUtc entropy,
          call = .transitionTerminal requestId .pending target signer nowUtc
            entropy) ∨
        DecidesTo deviceIdBytes snapshots requestId call decision) := by
  have hPending : source.permits target = true → source = .pending := by
    intro hEdge
    rw [hTarget] at hEdge
    cases decision <;> cases source <;> first | rfl | cases hEdge
  cases h with
  | nonterminal _ _ hOpen hEdge =>
      have hSource := hPending hEdge
      subst hSource
      exact ⟨rfl, Or.inl ⟨hOpen, rfl⟩⟩
  | prepared => cases decision <;> cases hTarget
  | terminal _ _ signer nowUtc entropy hClosed hEdge =>
      have hSource := hPending hEdge
      subst hSource
      exact ⟨rfl, Or.inr (Or.inl ⟨hClosed, signer, nowUtc, entropy, rfl⟩)⟩
  | reconciled succeeded => cases succeeded <;> cases decision <;> cases hTarget
  | booted => cases decision <;> cases hTarget
  | lapsed _ _ _ _ _ hLapsed =>
      subst hTarget
      rcases hLapsed with hLapsed | hLapsed <;> cases decision <;> cases hLapsed
  | decided attempt signer entropy hRequest context verified hRead _ =>
      exact ⟨rfl, Or.inr (Or.inr ⟨attempt, signer, entropy, context, verified, rfl,
        hRequest, hRead, decidedState_injective hTarget⟩)⟩

theorem Drives.to_approved
    (h : Drives deviceIdBytes snapshots before requestId call source target reason)
    (hTarget : target = .approved) :
    source = .pending ∧
      (call = .transitionNonterminal requestId .pending .approved ∨
        DecidesTo deviceIdBytes snapshots requestId call .approve) := by
  have hDecided : target = decidedState .approve := hTarget
  obtain ⟨hSource, hCall⟩ := h.to_decided hDecided
  subst hTarget
  rcases hCall with ⟨-, hCall⟩ | ⟨hClosed, -⟩ | hDecides
  · exact ⟨hSource, Or.inl hCall⟩
  · cases hClosed
  · exact ⟨hSource, Or.inr hDecides⟩

theorem Drives.to_denied
    (h : Drives deviceIdBytes snapshots before requestId call source target reason)
    (hTarget : target = .denied) :
    source = .pending ∧
      ((∃ signer nowUtc entropy, call =
          .transitionTerminal requestId .pending .denied signer nowUtc entropy) ∨
        DecidesTo deviceIdBytes snapshots requestId call .deny) := by
  have hDecided : target = decidedState .deny := hTarget
  obtain ⟨hSource, hCall⟩ := h.to_decided hDecided
  subst hTarget
  rcases hCall with ⟨hOpen, -⟩ | ⟨-, hCall⟩ | hDecides
  · cases hOpen
  · exact ⟨hSource, Or.inl hCall⟩
  · exact ⟨hSource, Or.inr hDecides⟩

/-- The states after approval are entered from approval or from one another. -/
theorem Drives.to_afterApproval
    (h : Drives deviceIdBytes snapshots before requestId call source target reason)
    (hTarget : target ∈ AFTER_APPROVAL) :
    source = .approved ∨ source ∈ AFTER_APPROVAL := by
  cases h with
  | nonterminal _ _ _ hEdge =>
      revert hEdge hTarget
      cases source <;> cases target <;> decide
  | prepared => exact absurd hTarget (by decide)
  | terminal _ _ _ _ _ _ hEdge =>
      revert hEdge hTarget
      cases source <;> cases target <;> decide
  | reconciled succeeded => exact Or.inr (by decide)
  | booted => exact absurd hTarget (by decide)
  | lapsed _ _ _ _ _ hLapsed =>
      rcases hLapsed with rfl | rfl <;> exact absurd hTarget (by decide)
  | decided _ _ _ _ _ verified =>
      revert hTarget
      cases verified.decision with
      | approve => exact fun hTarget => absurd hTarget (by decide)
      | deny => exact fun hTarget => absurd hTarget (by decide)

end Edges

/-! ### Recorded states -/

/-- The event chain of the request has recorded the state. -/
def Recorded (requestId : PublicId) (state : RequestState) (tables : Tables) : Prop :=
  state.asDb ∈ (tables.eventsOf requestId).map EventRow.state

theorem Recorded.mono {requestId : PublicId} {state : RequestState}
    {before after : Tables} (hKept : Kept requestId before after)
    (h : Recorded requestId state before) : Recorded requestId state after := by
  unfold Recorded at h ⊢
  exact (hKept.events.map EventRow.state).subset h

section Recording

variable [Cryptography] {requestId : PublicId} {state : RequestState}

/-- A state is recorded by the call that moves the request there. -/
theorem Effect.recorded {deviceIdBytes : ByteArr 16} {snapshots : Snapshots}
    {call : Call} {before after : Tables}
    (h : Effect deviceIdBytes snapshots call requestId before after)
    (hState : state ≠ .planning) (hBefore : ¬ Recorded requestId state before)
    (hAfter : Recorded requestId state after) :
    ∃ old new reason, Moved before.brokerIdentity requestId reason old new
        (before.dossier requestId) (after.dossier requestId) ∧
      Drives deviceIdBytes snapshots before requestId call old.state new.state
        reason ∧
      new.state = state := by
  cases h with
  | kept hKept =>
      have hEvents : after.eventsOf requestId = before.eventsOf requestId :=
        congrArg Dossier.events hKept
      unfold Recorded at hBefore hAfter
      rw [hEvents] at hAfter
      exact absurd hAfter hBefore
  | created _ _ _ _ _ _ hCreated =>
      have hEvents : after.eventsOf requestId = [createdEvent requestId] :=
        congrArg Dossier.events hCreated
      unfold Recorded at hAfter
      rw [hEvents, List.map_singleton, List.mem_singleton] at hAfter
      exact absurd (RequestState.asDb_injective hAfter) hState
  | moved old new reason hMoved hDrives =>
      obtain ⟨event, hNext, hAdded⟩ := hMoved.event
      have hEvents : after.eventsOf requestId =
          before.eventsOf requestId ++ [event.toRow requestId] := hAdded
      unfold Recorded at hBefore hAfter
      rw [hEvents, List.map_append, List.mem_append] at hAfter
      rcases hAfter with hOld | hNew
      · exact absurd hOld hBefore
      · have hSame : state.asDb = event.state.asDb := List.mem_singleton.mp hNew
        refine ⟨old, new, reason, hMoved, hDrives, ?_⟩
        rw [← hNext.state, RequestState.asDb_injective hSame]

/-- A move records its target. -/
theorem Moved.recorded {identity : Option IdentityRow} {reason : TransitionReason}
    {old new : RequestRow} {before after : Tables}
    (h : Moved identity requestId reason old new (before.dossier requestId)
      (after.dossier requestId)) : Recorded requestId new.state after := by
  obtain ⟨event, hNext, hAdded⟩ := h.event
  have hEvents : after.eventsOf requestId =
      before.eventsOf requestId ++ [event.toRow requestId] := hAdded
  unfold Recorded
  rw [hEvents, List.map_append, ← hNext.state]
  exact List.mem_append_right _ List.mem_cons_self

/-- Every request beyond approval has recorded its approval. -/
def ApprovalsRecorded (store : BrokerStore) : Prop :=
  ∀ requestId row, store.database.request? requestId = some row →
    row.state = .approved ∨ row.state ∈ AFTER_APPROVAL →
    Recorded requestId .approved store.database.toTables

theorem ApprovalsRecorded.step (store : BrokerStore) (call : Call)
    (h : ApprovalsRecorded store) : ApprovalsRecorded (store.step call) := by
  rcases store.step_cases call with hSame | hDone
  · rw [hSame]
    exact h
  intro requestId row hRow hState
  have hKept := Kept.transaction hDone requestId
  cases Call.effect hDone requestId with
  | kept hUnchanged =>
      have hBefore : store.database.request? requestId = some row :=
        (congrArg Dossier.row hUnchanged).symm.trans hRow
      exact (h requestId row hBefore hState).mono hKept
  | created request _ generation _ _ _ hCreated =>
      have hNew : row = newRequest _ request generation :=
        Option.some.inj (hRow.symm.trans (congrArg Dossier.row hCreated))
      rw [hNew] at hState
      change RequestState.planning = .approved ∨
        RequestState.planning ∈ AFTER_APPROVAL at hState
      exact absurd hState (by decide)
  | moved old new reason hMoved hDrives =>
      have hNew : row = new := Option.some.inj (hRow.symm.trans hMoved.rowAfter)
      rw [hNew] at hState
      rcases hState with hApproved | hAfter
      · rw [← hApproved]
        exact hMoved.recorded
      · exact (h requestId old hMoved.rowBefore
          (hDrives.to_afterApproval hAfter)).mono hKept

theorem ApprovalsRecorded.of_run (calls : List Call) :
    ApprovalsRecorded (run BrokerStore.step BrokerStore.empty calls) := by
  have hStart : ApprovalsRecorded BrokerStore.empty := by
    intro requestId row hRow
    cases hRow
  exact run_invariant hStart ApprovalsRecorded.step calls

/-- What a reading with a verified decision has seen. -/
theorem DecisionAttempt.read_decided {attempt : DecisionAttempt}
    {deviceIdBytes : ByteArr 16} {snapshots : Snapshots} {context : ApprovalContext}
    {verified : VerifiedAssertion}
    (h : attempt.read deviceIdBytes snapshots = .ok (.decided context verified)) :
    attempt.context deviceIdBytes snapshots.request snapshots.identity =
        .ok context ∧
      ∃ credentials, pinnedCredentials context.generation snapshots.credentials =
          .ok credentials ∧
        verifySubmission attempt.verifier context credentials attempt.submission =
          .ok verified := by
  cases DecisionAttempt.read_eq_ok_iff.mp h with
  | decided _ credentials _ hContext _ _ hCredentials hVerified =>
      exact ⟨hContext, credentials, hCredentials, hVerified⟩

theorem DecidesTo.verifiedDecision {store : BrokerStore} {call : Call}
    {decision : Decision}
    (h : DecidesTo store.deviceIdBytes (Snapshots.at store.database.toTables)
      requestId call decision)
    (hPending : requestState requestId store.database.toTables = some .pending) :
    VerifiedDecision requestId decision store call := by
  obtain ⟨attempt, signer, entropy, context, verified, hCall, hRequest, hRead,
    hDecision⟩ := h
  obtain ⟨hContext, credentials, hCredentials, hVerified⟩ :=
    DecisionAttempt.read_decided hRead
  exact ⟨attempt, signer, entropy, context, credentials, verified, hCall, hRequest,
    hPending, hContext, hCredentials, hVerified, hDecision⟩

/-- The step that records a state, other than the first, drives the request
there. -/
theorem recorded_by_drive {store : BrokerStore} {call : Call}
    (hState : state ≠ .planning)
    (hBefore : ¬ Recorded requestId state store.database.toTables)
    (hAfter : Recorded requestId state (store.step call).database.toTables) :
    ∃ source reason,
      requestState requestId store.database.toTables = some source ∧
      Drives store.deviceIdBytes (Snapshots.at store.database.toTables)
        store.database.toTables requestId call source state reason := by
  rcases store.step_cases call with hSame | hDone
  · rw [hSame] at hAfter
    exact absurd hAfter hBefore
  · obtain ⟨old, new, reason, hMoved, hDrives, hNew⟩ :=
      (Call.effect hDone requestId).recorded hState hBefore hAfter
    rw [hNew] at hDrives
    exact ⟨old.state, reason,
      requestState_eq_some_iff.mpr ⟨old, hMoved.rowBefore, rfl⟩, hDrives⟩

/-- The call that records an approval is a bypass or a verified decision. -/
theorem approval_cause (store : BrokerStore) (call : Call)
    (hDirect : ¬ BypassesDecision store call)
    (hBefore : ¬ Recorded requestId .approved store.database.toTables)
    (hAfter : Recorded requestId .approved (store.step call).database.toTables) :
    VerifiedDecision requestId .approve store call := by
  obtain ⟨source, reason, hState, hDrives⟩ :=
    recorded_by_drive (by decide) hBefore hAfter
  obtain ⟨rfl, hPath⟩ := hDrives.to_approved rfl
  rcases hPath with hBypass | hDecides
  · exact absurd (Or.inl ⟨requestId, hState, hBypass⟩) hDirect
  · exact hDecides.verifiedDecision hState

/-- The call that records a denial is a bypass or a verified decision. -/
theorem denial_cause (store : BrokerStore) (call : Call)
    (hDirect : ¬ BypassesDecision store call)
    (hBefore : ¬ Recorded requestId .denied store.database.toTables)
    (hAfter : Recorded requestId .denied (store.step call).database.toTables) :
    VerifiedDecision requestId .deny store call := by
  obtain ⟨source, reason, hState, hDrives⟩ :=
    recorded_by_drive (by decide) hBefore hAfter
  obtain ⟨rfl, hPath⟩ := hDrives.to_denied rfl
  rcases hPath with ⟨signer, nowUtc, entropy, hBypass⟩ | hDecides
  · exact absurd (Or.inr ⟨requestId, signer, nowUtc, entropy, hState, hBypass⟩)
      hDirect
  · exact hDecides.verifiedDecision hState

/-- The events that are read back are the recorded ones. -/
theorem SoundRequest.recorded_of_event {identity : Option IdentityRow}
    {row : RequestRow} {tables : Tables} {chain : List LifecycleEvent}
    {event : LifecycleEvent}
    (h : SoundRequest identity requestId row (tables.dossier requestId))
    (hChain : events requestId tables = .ok chain) (hEvent : event ∈ chain) :
    Recorded requestId event.state tables := by
  obtain ⟨log, hLog⟩ := h.chain
  have hStored : StoredLog requestId row.state (tables.eventsOf requestId) log := hLog
  rw [hStored.events_eq, Except.ok.injEq] at hChain
  subst hChain
  unfold Recorded
  rw [hStored.rows, List.map_map]
  exact List.mem_map.mpr ⟨event, hEvent, rfl⟩

theorem SoundRequest.recorded_state {identity : Option IdentityRow}
    {row : RequestRow} {tables : Tables}
    (h : SoundRequest identity requestId row (tables.dossier requestId)) :
    Recorded requestId row.state tables := by
  obtain ⟨log, hLog⟩ := h.chain
  have hStored : StoredLog requestId row.state (tables.eventsOf requestId) log := hLog
  obtain ⟨last, hLast, hState⟩ := hStored.last
  rw [← hState]
  exact h.recorded_of_event hStored.events_eq (List.mem_of_getLast? hLast)

end Recording

theorem not_recorded_empty (requestId : PublicId) (state : RequestState) :
    ¬ Recorded requestId state BrokerStore.empty.database.toTables := by
  intro h
  cases h

/-- In every run in which no generic transition approves or denies a pending
request, every approval and every denial goes back to a submission that was
verified while the request was pending. -/
theorem decisions_verified [Cryptography] {calls : List Call}
    (hCalls : Throughout BrokerStore.step BrokerStore.empty calls
      fun store call => ¬ BypassesDecision store call) :
    ∀ earlier, earlier <+: calls → DecisionsVerified earlier := by
  intro earlier hPrefix requestId row hRow
  have hDirect := hCalls.of_prefix hPrefix
  have hRequest := (BrokerStore.sound_of_run earlier).requests requestId row hRow
  refine ⟨?_, ?_⟩
  · intro hApproved
    have hRecorded : Recorded requestId .approved
        (run BrokerStore.step BrokerStore.empty earlier).database.toTables := by
      rcases hApproved with ⟨chain, hChain, event, hEvent, hState⟩ | hAfter
      · rw [← hState]
        exact hRequest.recorded_of_event hChain hEvent
      · exact ApprovalsRecorded.of_run earlier requestId row hRow (Or.inr hAfter)
    exact occurs_of_reached
      (Q := fun store => Recorded requestId .approved store.database.toTables)
      (not_recorded_empty requestId .approved) approval_cause hDirect hRecorded
  · intro hDenied
    have hRecorded : Recorded requestId .denied
        (run BrokerStore.step BrokerStore.empty earlier).database.toTables := by
      rw [← hDenied]
      exact hRequest.recorded_state
    exact occurs_of_reached
      (Q := fun store => Recorded requestId .denied store.database.toTables)
      (not_recorded_empty requestId .denied) denial_cause hDirect hRecorded

/-- The chain of a request has an event of its state. -/
theorem exists_event_of_state [Cryptography] {calls : List Call}
    {requestId : PublicId} {state : RequestState}
    (h : requestState requestId
      (run BrokerStore.step BrokerStore.empty calls).database.toTables =
        some state) :
    ∃ row, (run BrokerStore.step BrokerStore.empty calls).database.request?
        requestId = some row ∧
      ∃ chain, events requestId
          (run BrokerStore.step BrokerStore.empty calls).database.toTables =
            .ok chain ∧
        ∃ event ∈ chain, event.state = state := by
  obtain ⟨row, hRow, hState⟩ := Option.map_eq_some_iff.mp h
  obtain ⟨log, hLog⟩ :=
    ((BrokerStore.sound_of_run calls).requests requestId row hRow).chain
  obtain ⟨last, hLast, hLastState⟩ := hLog.last
  exact ⟨row, hRow, log, hLog.events_eq, last, List.mem_of_getLast? hLast,
    hLastState.trans hState⟩

/-- Two generic transitions take the sample request to approval. -/
def bypassRun : List Call :=
  [.submit sampleRequest allowAll,
    .transitionNonterminal sampleRequest.requestId .planning .pending,
    .transitionNonterminal sampleRequest.requestId .pending .approved]

/-- An approval that no submission decided. -/
theorem approved_without_submission :
    ¬ @DecisionsVerified keyedHashCryptography bypassRun := by
  intro h
  have hState : requestState sampleRequest.requestId
      (run (@BrokerStore.step keyedHashCryptography) BrokerStore.empty
        bypassRun).database.toTables = some .approved := by
    decide +kernel
  obtain ⟨row, hRow, hChain⟩ :=
    @exists_event_of_state keyedHashCryptography _ _ _ hState
  have hOccurs := (h sampleRequest.requestId row hRow).1 (Or.inl hChain)
  -- None of the three calls submits a decision.
  obtain ⟨call, hCall, store, attempt, signer, entropy, _, _, _, hSubmits, -⟩ :=
    hOccurs.exists_mem
  subst hSubmits
  simp [bypassRun] at hCall

/-! ### A verified approval -/

def samplePin : CredentialPin where
  credentialId := utf8 "credential"
  publicKeyCose := utf8 "public key"
  coseAlgorithm := ES256_ALGORITHM

def samplePlan : FrozenPlan where
  packageName := sampleRequest.packageName
  manifestDigest := ByteArr.fill 32 1
  planDigest := ByteArr.fill 32 2
  actionCount := 1

def samplePendingContext : PendingRequestContext where
  createdUtc := 10
  expiresUtc := 100
  bootId := ByteArr.fill 16 4
  deadlineMonoNs := 1000
  nonce := ByteArr.fill 32 5
  policyId := ByteArr.fill 16 6
  policyDigest := ByteArr.fill 32 8

def sampleRelyingParty : WebAuthnRelyingParty where
  rpId := "example.org"
  origin := "https://example.org"

/-- The context of the sample request once it is pending. -/
def sampleApprovalContext : ApprovalContext where
  requestId := ByteArr.fill 16 0
  deviceId := ByteArr.fill 16 9
  brokerEpoch := 0
  requestDigest :=
    ⟨[113, 9, 163, 171, 134, 65, 64, 24, 178, 84, 130, 13, 93, 85, 5, 10, 146, 5,
      121, 11, 244, 240, 5, 225, 7, 2, 156, 9, 203, 48, 172, 75], rfl⟩
  generation := 0
  nonce := samplePendingContext.nonce
  rpId := sampleRelyingParty.rpId
  origin := sampleRelyingParty.origin
  decision := .approve
  expiresUtc := samplePendingContext.expiresUtc

/-- A verifier that returns the facts of a matching assertion. -/
def sampleVerifier [Cryptography] : ReviewedWebAuthnVerifier :=
  fun submission pinned =>
    match submission.approvalContext.webauthnChallenge with
    | .error _ => none
    | .ok challenge => some
        { credentialId := pinned.credentialId
          clientDataType := "webauthn.get"
          challenge := challenge.val
          origin := submission.approvalContext.origin
          rpIdHash := sha256 (utf8 submission.approvalContext.rpId)
          userPresent := true
          userVerified := true
          coseAlgorithm := ES256_ALGORITHM
          signCount := 1 }

def sampleAttempt [Cryptography] : DecisionAttempt where
  requestId := sampleRequest.requestId
  submission :=
    { approvalContext := sampleApprovalContext
      credentialId := samplePin.credentialId
      authenticatorData := List.replicate 37 0
      clientDataJson := utf8 "client data"
      signature := utf8 "signature"
      userHandle := none }
  verifier := sampleVerifier
  relyingParty := sampleRelyingParty
  nowMonoNs := 500
  nowUtc := 50

/-- The sample request is frozen and then approved. -/
def approvedRun [Cryptography] : List Call :=
  [.initializeIdentity sampleSigner (some (ByteArr.fill 16 9)),
    .replaceCredentials 0 [samplePin],
    .submit sampleRequest allowAll,
    .prepareForDecision sampleRequest.requestId samplePlan samplePendingContext
      sampleSigner,
    .applyWebauthnSubmission sampleAttempt sampleSigner none]

/-- The approval of the sample request goes back to its submission. -/
theorem decisions_verified_sample :
    requestState sampleRequest.requestId
        (run (@BrokerStore.step keyedHashCryptography) BrokerStore.empty
          (@approvedRun keyedHashCryptography)).database.toTables =
        some .approved ∧
      Occurs (@BrokerStore.step keyedHashCryptography) BrokerStore.empty
        (@approvedRun keyedHashCryptography)
        (@VerifiedDecision keyedHashCryptography sampleRequest.requestId
          .approve) := by
  have hState : requestState sampleRequest.requestId
      (run (@BrokerStore.step keyedHashCryptography) BrokerStore.empty
        (@approvedRun keyedHashCryptography)).database.toTables =
        some .approved := by
    decide +kernel
  have hCalls : Throughout (@BrokerStore.step keyedHashCryptography)
      BrokerStore.empty (@approvedRun keyedHashCryptography)
      fun store call => ¬ BypassesDecision store call := by
    apply Throughout.of_mem
    intro call hCall store hBypass
    rcases hBypass with ⟨_, -, rfl⟩ | ⟨_, _, _, _, -, rfl⟩ <;>
      simp [approvedRun] at hCall
  obtain ⟨row, hRow, hChain⟩ :=
    @exists_event_of_state keyedHashCryptography _ _ _ hState
  have hVerified := @decisions_verified keyedHashCryptography _ hCalls _
    List.prefix_rfl sampleRequest.requestId row hRow
  exact ⟨hState, hVerified.1 (Or.inl hChain)⟩

end Broker
end RootPermit
