import RootPermit.Broker.Authenticity

/-!
# What an accepted decision has passed

`apply_webauthn_submission` reads before its transaction and again inside it.
`DecisionGuards` collects everything that holds of a store, a submission and an
assertion when the outcome is an approval or a denial, whatever verifier was used
(`decision_guarded`).  A deadline that has passed comes before a changed generation,
and both come before the decision (`Precedence`).
-/

namespace RootPermit
namespace Broker

open Foundation Protocol WebAuthn

/-! ### Guards and their order -/

/-- The request has expired by the wall clock or by the monotonic clock. -/
def DecisionAttempt.Elapsed (attempt : DecisionAttempt) (row : RequestRow) : Prop :=
  (∃ expires, row.requestExpiresUtc = some expires ∧ expires ≤ attempt.nowUtc) ∨
    ∃ deadline, row.deadlineMonoNs = some deadline ∧
      deadline.toInt ≤ attempt.nowMonoNs.toNat

/-- Everything that was checked of a decision that moves the request to `state`. -/
structure DecisionGuards [Cryptography] (store : BrokerStore)
    (attempt : DecisionAttempt) (signer : BrokerSigningKey) (row : RequestRow)
    (assertion : LibraryVerifiedAssertion) (state : RequestState) : Prop where
  request : store.database.request? attempt.requestId = some row
  pending : row.state = .pending
  context : approvalContext store.deviceIdBytes attempt.requestId
    attempt.submission.approvalContext.decision attempt.relyingParty
    store.database.toTables store.database.toTables =
      .ok attempt.submission.approvalContext
  decision : state = decidedState attempt.submission.approvalContext.decision
  unexpired : ∃ expires, row.requestExpiresUtc = some expires ∧ attempt.nowUtc < expires
  inTime : ∃ deadline, row.deadlineMonoNs = some deadline ∧
    (attempt.nowMonoNs.toNat : Int) < deadline.toInt
  generation : store.database.brokerMetadata.credentialGeneration = row.generation
  verified : ∃ credential ∈ store.database.credentials,
    credential.generation = row.generation ∧
    credential.credentialId = attempt.submission.credentialId ∧
    credential.quarantined = 0 ∧ credential.coseAlgorithm = ES256_ALGORITHM ∧
    ∃ pinned, pinCredential credential = .ok pinned ∧
      attempt.verifier attempt.submission pinned = some assertion
  binds : AssertionBinds attempt.submission.approvalContext attempt.submission assertion
  signer : ∃ pinned, store.database.brokerIdentity = some pinned ∧ pinned.Names signer

/-- What the transaction of an accepted decision does: it moves the request, with one
event and, for a denial, a receipt, and raises the counter of the credential. -/
structure DecisionCommitted [Cryptography] (attempt : DecisionAttempt)
    (assertion : LibraryVerifiedAssertion) (state : RequestState)
    (before after : Tables) : Prop where
  moved : ∃ old new, old.state = .pending ∧ new.state = state ∧
    Moved before.brokerIdentity attempt.requestId (transitionReason state) old new
      (before.dossier attempt.requestId) (after.dossier attempt.requestId)
  others : ∀ other, other ≠ attempt.requestId →
    after.dossier other = before.dossier other
  shared : SharedKept before after
  credentials : after.credentials = Table.update
    (fun row => decide (row.credentialId = attempt.submission.credentialId))
    (fun row => { row with
      signCount := max row.signCount (Int64.ofNat assertion.signCount.toNat) })
    before.credentials

/-- Which outcomes are left to a request that has expired, and to one that was
submitted under another generation. -/
structure Precedence (store : BrokerStore) (attempt : DecisionAttempt)
    (row : RequestRow) (outcome : DecisionOutcome) : Prop where
  elapsed : attempt.Elapsed row → outcome.state = .expired
  superseded : ¬ attempt.Elapsed row →
    store.database.brokerMetadata.credentialGeneration ≠ row.generation →
    outcome.state = .stale

/-! ### The reads -/

/-- The pinned credentials are the rows of their generation. -/
theorem pinnedCredentials_eq_ok {generation : UInt64} {tables : Tables}
    {credentials : List PinnedCredential}
    (h : pinnedCredentials generation tables = .ok credentials)
    {pinned : PinnedCredential} (hPinned : pinned ∈ credentials) :
    ∃ row ∈ tables.credentials, row.generation.toInt = generation.toNat ∧
      pinCredential row = .ok pinned := by
  simp only [pinnedCredentials, bind_eq_ok_iff, orFault_eq_ok_iff,
    toI64?_eq_some_iff] at h
  obtain ⟨stored, hStored, hRows⟩ := h
  obtain ⟨row, hRow, hPin⟩ := mem_of_mapM_eq_ok hRows hPinned
  obtain ⟨hMem, hGeneration⟩ := Table.mem_select_iff.mp hRow
  exact ⟨row, hMem, by rw [hGeneration, hStored], hPin⟩

theorem credentialGeneration_eq_ok_iff {generation : UInt64} {tables : Tables} :
    credentialGeneration tables = .ok generation ↔
      tables.brokerMetadata.credentialGeneration.toInt = generation.toNat := by
  rw [credentialGeneration, orFault_eq_ok_iff, toU64?_eq_some_iff, eq_comm]

/-- The columns of a pinned credential. -/
theorem pinCredential_eq_ok {row : CredentialRow} {pinned : PinnedCredential}
    (h : pinCredential row = .ok pinned) :
    pinned.credentialId = row.credentialId ∧
      (pinned.quarantined = false → row.quarantined = 0) ∧
      pinned.coseAlgorithm = row.coseAlgorithm := by
  simp only [pinCredential, bind_eq_ok_iff, orFault_eq_ok_iff, pure_eq_ok,
    Except.ok.injEq] at h
  obtain ⟨_, -, _, -, rfl⟩ := h
  refine ⟨rfl, ?_, rfl⟩
  intro hTrusted
  exact not_not.mp (of_decide_eq_false hTrusted)

/-- The row that an approval context is put together from. -/
theorem approvalContext_row {deviceIdBytes : ByteArr 16} {requestId : PublicId}
    {decision : Decision} {relyingParty : WebAuthnRelyingParty}
    {request identity : Tables} {context : ApprovalContext}
    (h : approvalContext deviceIdBytes requestId decision relyingParty request
      identity = .ok context) :
    context.decision = decision ∧
      ∃ row, request.request? requestId = some row ∧ row.state = .pending ∧
        row.requestExpiresUtc = some context.expiresUtc ∧
        row.generation.toInt = context.generation.toNat := by
  simp only [approvalContext, requestRow, bind_eq_ok_iff, orFault_eq_ok_iff,
    rejectIf_eq_ok_iff, toU64?_eq_some_iff, pure_eq_ok, Except.ok.injEq] at h
  obtain ⟨row, hRow, _, -, _, -, _, hPending, _, -, _, -, _, -, _, -, _, hGeneration,
    _, -, _, hExpires, rfl⟩ := h
  exact ⟨rfl, row, hRow, not_not.mp hPending, hExpires, hGeneration.symm⟩

section Reads

variable {attempt : DecisionAttempt} {deviceIdBytes : ByteArr 16}
  {context : ApprovalContext} {row : RequestRow}

theorem DecisionAttempt.context_eq_ok_iff {request identity : Tables} :
    attempt.context deviceIdBytes request identity = .ok context ↔
      approvalContext deviceIdBytes attempt.requestId
          attempt.submission.approvalContext.decision attempt.relyingParty request
          identity = .ok context ∧
        context = attempt.submission.approvalContext := by
  simp only [DecisionAttempt.context, bind_eq_ok_iff, rejectIf_eq_ok_iff, pure_eq_ok,
    Except.ok.injEq, ne_eq, not_not]
  constructor
  · intro h
    obtain ⟨found, hFound, _, hSame, rfl⟩ := h
    exact ⟨hFound, hSame⟩
  · intro h
    exact ⟨context, h.1, (), h.2, rfl⟩

/-- The two clocks are asked one after the other. -/
theorem DecisionAttempt.isExpired_eq_ok {tables : Tables} {expired : Bool}
    (hRow : tables.request? attempt.requestId = some row)
    (hExpires : row.requestExpiresUtc = some context.expiresUtc)
    (h : attempt.isExpired context tables = .ok expired) :
    (expired = true → attempt.Elapsed row) ∧
      (expired = false → attempt.nowUtc < context.expiresUtc ∧
        ∃ deadline, row.deadlineMonoNs = some deadline ∧
          (attempt.nowMonoNs.toNat : Int) < deadline.toInt) := by
  unfold DecisionAttempt.isExpired at h
  by_cases hClock : context.expiresUtc ≤ attempt.nowUtc
  · rw [if_pos hClock, Except.ok.injEq] at h
    subst h
    exact ⟨fun _ => Or.inl ⟨context.expiresUtc, hExpires, hClock⟩, nofun⟩
  · rw [if_neg hClock] at h
    simp only [deadlineElapsed, requestRow, hRow, bind_eq_ok_iff, orFault_eq_ok_iff,
      toU64?_eq_some_iff, pure_eq_ok, Except.ok.injEq, Option.some.injEq] at h
    obtain ⟨_, rfl, deadline, hDeadline, limit, hLimit, rfl⟩ := h
    constructor
    · intro hPassed
      have hReached : limit.toNat ≤ attempt.nowMonoNs.toNat := of_decide_eq_true hPassed
      exact Or.inr ⟨deadline, hDeadline, by omega⟩
    · intro hAhead
      have hBefore : ¬ limit.toNat ≤ attempt.nowMonoNs.toNat :=
        of_decide_eq_false hAhead
      exact ⟨Int64.not_le.mp hClock, deadline, hDeadline, by omega⟩

theorem DecisionAttempt.not_elapsed {expires deadline : Int64}
    (hExpires : row.requestExpiresUtc = some expires) (hClock : attempt.nowUtc < expires)
    (hDeadline : row.deadlineMonoNs = some deadline)
    (hAhead : (attempt.nowMonoNs.toNat : Int) < deadline.toInt) :
    ¬ attempt.Elapsed row := by
  rintro (⟨found, hFound, hPassed⟩ | ⟨found, hFound, hPassed⟩)
  · rw [hExpires, Option.some.injEq] at hFound
    subst hFound
    exact Int64.not_le.mpr hClock hPassed
  · rw [hDeadline, Option.some.injEq] at hFound
    subst hFound
    omega

end Reads

/-! ### The outcome -/

section Outcome

variable [Cryptography] {requestId : PublicId} {before after : Database}

omit [Cryptography] in
theorem requestState_of_dossier {first second : Tables}
    (h : first.dossier requestId = second.dossier requestId) :
    requestState requestId first = requestState requestId second := by
  have hRow : first.request? requestId = second.request? requestId :=
    congrArg Dossier.row h
  rw [requestState, requestState, hRow]

theorem appendTransition_state {expected : Option RequestState} {next : RequestState}
    {reason : TransitionReason} {done : Unit}
    (h : appendTransition requestId expected next reason before = .ok (done, after)) :
    requestState requestId after.toTables = some next := by
  obtain ⟨row, event, hRow, -, -, hAfter⟩ := appendTransition_eq_ok h
  have hDossier : (before.toTables.advance requestId next event).dossier requestId = _ :=
    Tables.dossier_advance hRow
  rw [if_pos rfl, ← hAfter] at hDossier
  exact requestState_eq_some_iff.mpr ⟨_, congrArg Dossier.row hDossier, rfl⟩

theorem createReceipt_state {state : RequestState} {signer : BrokerSigningKey}
    {nowUtc : Int64} {evidence : List CborValue} {entropy : Entropy} {bytes : Bytes}
    (h : createReceipt requestId state signer nowUtc evidence entropy before =
      .ok (bytes, after)) :
    requestState requestId after.toTables = requestState requestId before.toTables := by
  obtain ⟨row, made, hRow, -, hMade, -, -, hAfter⟩ := createReceipt_eq_ok h
  have hDossier : (before.toTables.close requestId made).dossier requestId = _ :=
    Tables.dossier_close hMade.requestId hRow
  rw [if_pos rfl, ← hAfter] at hDossier
  have hNow : requestState requestId after.toTables = some row.state :=
    requestState_eq_some_iff.mpr ⟨_, congrArg Dossier.row hDossier, rfl⟩
  rw [hNow, requestState_eq_some_iff.mpr ⟨row, hRow, rfl⟩]

/-- The counter is raised in the credentials from before the transition. -/
theorem raiseSignCount_credentials {expected : Option RequestState}
    {next : RequestState} {reason : TransitionReason} {verified : VerifiedAssertion}
    {between : Database} {first second : Unit}
    (hAppend : appendTransition requestId expected next reason before =
      .ok (first, between))
    (hRaise : raiseSignCount verified between = .ok (second, after)) :
    after.credentials = Table.update
      (fun row => decide (row.credentialId = verified.credentialId))
      (fun row => { row with
        signCount := max row.signCount (Int64.ofNat verified.signCount.toNat) })
      before.credentials := by
  obtain ⟨_, _, -, -, -, hBetween⟩ := appendTransition_eq_ok hAppend
  rw [execute_eq_ok_iff.mp hRaise, hBetween]
  rfl

/-- What the transaction of a verified decision has rechecked, and what it comes
to. -/
theorem commitDecision_eq_ok {submission : DecisionSubmission}
    {context : ApprovalContext} {verified : VerifiedAssertion}
    {signer : BrokerSigningKey} {nowUtc : Int64} {entropy : Entropy}
    {outcome : DecisionOutcome}
    (h : commitDecision requestId submission context verified signer nowUtc entropy
      before = .ok (outcome, after)) :
    (∃ pinned, before.brokerIdentity = some pinned ∧ pinned.Names signer) ∧
      requestState requestId after.toTables = some outcome.state ∧
      ∃ generation, credentialGeneration before.toTables = .ok generation ∧
        ((generation ≠ context.generation ∧ outcome.state = .stale) ∨
          (generation = context.generation ∧
            outcome.state = decidedState verified.decision ∧
            after.credentials = Table.update
              (fun row => decide (row.credentialId = verified.credentialId))
              (fun row => { row with
                signCount := max row.signCount (Int64.ofNat verified.signCount.toNat) })
              before.credentials)) := by
  obtain ⟨hPinned, hRuns⟩ := commitDecision_runs h
  refine ⟨hPinned, ?_⟩
  cases hRuns with
  | stale generation between receipt hGeneration hChanged hAppend hReceipt =>
      refine ⟨?_, generation, hGeneration, Or.inl ⟨hChanged, rfl⟩⟩
      rw [createReceipt_state hReceipt, appendTransition_state hAppend]
  | closed between middle receipt hGeneration _ hAppend hRaise hReceipt =>
      refine ⟨?_, context.generation, hGeneration, Or.inr ⟨rfl, rfl, ?_⟩⟩
      · rw [createReceipt_state hReceipt,
          requestState_of_dossier (dossier_raiseSignCount hRaise),
          appendTransition_state hAppend]
      · obtain ⟨_, _, -, -, -, -, -, hAfter⟩ := createReceipt_eq_ok hReceipt
        rw [hAfter]
        exact raiseSignCount_credentials hAppend hRaise
  | opened between hGeneration _ hAppend hRaise =>
      refine ⟨?_, context.generation, hGeneration,
        Or.inr ⟨rfl, rfl, raiseSignCount_credentials hAppend hRaise⟩⟩
      rw [requestState_of_dossier (dossier_raiseSignCount hRaise),
        appendTransition_state hAppend]

/-- A submission drives only its own request, and only from pending. -/
theorem Drives.of_submission {deviceIdBytes : ByteArr 16} {snapshots : Snapshots}
    {tables : Tables} {attempt : DecisionAttempt} {signer : BrokerSigningKey}
    {entropy : Entropy} {source target : RequestState} {reason : TransitionReason}
    (h : Drives deviceIdBytes snapshots tables requestId
      (.applyWebauthnSubmission attempt signer entropy) source target reason) :
    attempt.requestId = requestId ∧ source = .pending ∧
      reason = transitionReason target := by
  cases h with
  | lapsed _ _ _ hRequest => exact ⟨hRequest, rfl, rfl⟩
  | decided _ _ _ hRequest => exact ⟨hRequest, rfl, rfl⟩

/-- On acceptance the request moves from pending, and nothing else changes but the
counter of the credential. -/
theorem DecisionCommitted.of_apply {deviceIdBytes : ByteArr 16} {snapshots : Snapshots}
    {attempt : DecisionAttempt} {assertion : LibraryVerifiedAssertion}
    {signer : BrokerSigningKey} {entropy : Entropy} {outcome : DecisionOutcome}
    (h : applyWebauthnSubmission deviceIdBytes snapshots attempt signer entropy before =
      .ok (outcome, after))
    (hState : requestState attempt.requestId after.toTables = some outcome.state)
    (hCredentials : after.credentials = Table.update
      (fun row => decide (row.credentialId = attempt.submission.credentialId))
      (fun row => { row with
        signCount := max row.signCount (Int64.ofNat assertion.signCount.toNat) })
      before.credentials) :
    DecisionCommitted attempt assertion outcome.state before.toTables
      after.toTables := by
  have hEffect : ∀ requestId, Effect deviceIdBytes snapshots
      (.applyWebauthnSubmission attempt signer entropy) requestId before.toTables
      after.toTables :=
    fun _ => applyWebauthnSubmission_effect h
  refine ⟨?_, ?_, applyWebauthnSubmission_shared h, hCredentials⟩
  · cases hEffect attempt.requestId with
    | kept _ hSpared => exact absurd rfl hSpared
    | created _ _ _ hCall => cases hCall
    | moved old new reason hMoved hDrives =>
        obtain ⟨row, hRow, hRowState⟩ := requestState_eq_some_iff.mp hState
        have hSame : new = row := Option.some.inj (hMoved.rowAfter.symm.trans hRow)
        have hNew : new.state = outcome.state := by rw [hSame, hRowState]
        obtain ⟨-, hPending, hReason⟩ := hDrives.of_submission
        rw [hReason, hNew] at hMoved
        exact ⟨old, new, hPending, hNew, hMoved⟩
  · intro other hOther
    cases hEffect other with
    | kept hKept => exact hKept
    | created _ _ _ hCall => cases hCall
    | moved _ _ _ _ hDrives => exact absurd hDrives.of_submission.1.symm hOther

end Outcome

/-! ### Every submission -/

section Submission

variable [Cryptography] {store : BrokerStore} {attempt : DecisionAttempt}
  {signer : BrokerSigningKey} {row : RequestRow}

/-- A verified decision that the recheck lets through has passed every guard. -/
theorem DecisionGuards.of_decided {context : ApprovalContext}
    {credentials : List PinnedCredential} {verified : VerifiedAssertion}
    (hContext : attempt.context store.deviceIdBytes store.database.toTables
      store.database.toTables = .ok context)
    (hInTime : attempt.isExpired context store.database.toTables = .ok false)
    (hActive : credentialGeneration store.database.toTables = .ok context.generation)
    (hCredentials : pinnedCredentials context.generation store.database.toTables =
      .ok credentials)
    (hVerified : verifySubmission attempt.verifier context credentials
      attempt.submission = .ok verified)
    (hSigner : ∃ pinned, store.database.brokerIdentity = some pinned ∧
      pinned.Names signer) :
    ∃ row assertion,
      DecisionGuards store attempt signer row assertion
        (decidedState verified.decision) ∧
      verified.credentialId = attempt.submission.credentialId ∧
      verified.signCount = assertion.signCount := by
  obtain ⟨hFound, hSubmitted⟩ := DecisionAttempt.context_eq_ok_iff.mp hContext
  obtain ⟨-, row, hRow, hPending, hExpires, hOwn⟩ := approvalContext_row hFound
  obtain ⟨hClock, deadline, hDeadline, hAhead⟩ :=
    (DecisionAttempt.isExpired_eq_ok hRow hExpires hInTime).2 rfl
  obtain ⟨-, hDecision, pinned, hPinned, hServes, assertion, hAssertion, hBinds,
    hCredential, hCount⟩ := verifySubmission_eq_ok hVerified
  obtain ⟨credential, hMem, hTheirs, hPin⟩ :=
    pinnedCredentials_eq_ok hCredentials hPinned
  obtain ⟨hId, hTrusted, hAlgorithm⟩ := pinCredential_eq_ok hPin
  have hNow := credentialGeneration_eq_ok_iff.mp hActive
  refine ⟨row, assertion, ?_, hCredential.trans hBinds.credentialId, hCount⟩
  rw [hSubmitted] at hFound hBinds hDecision
  exact {
    request := hRow
    pending := hPending
    context := hFound
    decision := congrArg decidedState hDecision
    unexpired := ⟨context.expiresUtc, hExpires, hClock⟩
    inTime := ⟨deadline, hDeadline, hAhead⟩
    generation := Int64.toInt_inj.mp (hNow.trans hOwn.symm)
    verified := ⟨credential, hMem, Int64.toInt_inj.mp (hTheirs.trans hOwn.symm),
      hId.symm.trans hServes.credentialId, hTrusted hServes.trusted,
      hAlgorithm.symm.trans hServes.algorithm, pinned, hPin, hAssertion⟩
    binds := hBinds
    signer := hSigner }

theorem DecisionGuards.not_elapsed {assertion : LibraryVerifiedAssertion}
    {state : RequestState}
    (h : DecisionGuards store attempt signer row assertion state) :
    ¬ attempt.Elapsed row := by
  obtain ⟨expires, hExpires, hClock⟩ := h.unexpired
  obtain ⟨deadline, hDeadline, hAhead⟩ := h.inTime
  exact DecisionAttempt.not_elapsed hExpires hClock hDeadline hAhead

/-- What a successful submission comes to: it expires the request, makes it stale, or
has passed every guard. -/
theorem applyWebauthnSubmission_outcome {entropy : Entropy} {outcome : DecisionOutcome}
    {after : Database}
    (h : applyWebauthnSubmission store.deviceIdBytes
      (Snapshots.at store.database.toTables) attempt signer entropy store.database =
        .ok (outcome, after)) :
    ∃ row, store.database.request? attempt.requestId = some row ∧
      ((attempt.Elapsed row ∧ outcome.state = .expired) ∨
        (¬ attempt.Elapsed row ∧ outcome.state = .stale) ∨
        ∃ assertion,
          DecisionGuards store attempt signer row assertion outcome.state ∧
          DecisionCommitted attempt assertion outcome.state store.database.toTables
            after.toTables) := by
  have hParts := h
  simp only [applyWebauthnSubmission, run_bind_eq_ok_iff, attempt_eq_ok_iff] at hParts
  obtain ⟨reading, _, ⟨hRead, rfl⟩, hRest⟩ := hParts
  cases DecisionAttempt.read_eq_ok_iff.mp hRead with
  | expired context hContext hExpired =>
      simp only [run_bind_eq_ok_iff, run_pure_eq_ok_iff] at hRest
      obtain ⟨_, _, -, rfl, rfl⟩ := hRest
      obtain ⟨hFound, -⟩ := DecisionAttempt.context_eq_ok_iff.mp hContext
      obtain ⟨-, row, hRow, -, hExpires, -⟩ := approvalContext_row hFound
      exact ⟨row, hRow, Or.inl
        ⟨(DecisionAttempt.isExpired_eq_ok hRow hExpires hExpired).1 rfl, rfl⟩⟩
  | stale context active hContext hInTime =>
      simp only [run_bind_eq_ok_iff, run_pure_eq_ok_iff] at hRest
      obtain ⟨_, _, -, rfl, rfl⟩ := hRest
      obtain ⟨hFound, -⟩ := DecisionAttempt.context_eq_ok_iff.mp hContext
      obtain ⟨-, row, hRow, -, hExpires, -⟩ := approvalContext_row hFound
      obtain ⟨hClock, deadline, hDeadline, hAhead⟩ :=
        (DecisionAttempt.isExpired_eq_ok hRow hExpires hInTime).2 rfl
      exact ⟨row, hRow, Or.inr (Or.inl
        ⟨DecisionAttempt.not_elapsed hExpires hClock hDeadline hAhead, rfl⟩)⟩
  | decided context credentials verified hContext hInTime hActive hCredentials
      hVerified =>
      obtain ⟨hSigner, hState, generation, hGeneration, hOutcome⟩ :=
        commitDecision_eq_ok hRest
      -- The recheck sees the generation that was read.
      have hSame : generation = context.generation :=
        Except.ok.inj (hGeneration.symm.trans hActive)
      obtain ⟨-, hDecided, hRaised⟩ :=
        hOutcome.resolve_left fun hChanged => hChanged.1 hSame
      obtain ⟨row, assertion, hGuards, hCredential, hCount⟩ :=
        DecisionGuards.of_decided hContext hInTime hActive hCredentials hVerified
          hSigner
      rw [← hDecided] at hGuards
      rw [hCredential, hCount] at hRaised
      exact ⟨row, hGuards.request, Or.inr (Or.inr
        ⟨assertion, hGuards, DecisionCommitted.of_apply h hState hRaised⟩)⟩

/-- A decision that is accepted has passed every guard, whatever the verifier; an
expired request can only expire, and one of another generation only become stale; a
failed call changes nothing. -/
theorem decision_guarded (store : BrokerStore) (attempt : DecisionAttempt)
    (signer : BrokerSigningKey) (entropy : Entropy) :
    (∀ outcome after,
      applyWebauthnSubmission store.deviceIdBytes (Snapshots.at store.database.toTables)
        attempt signer entropy store.database = .ok (outcome, after) →
      (outcome.state = .approved ∨ outcome.state = .denied →
        ∃ row assertion,
          DecisionGuards store attempt signer row assertion outcome.state ∧
          DecisionCommitted attempt assertion outcome.state store.database.toTables
            after.toTables) ∧
      ∀ row, store.database.request? attempt.requestId = some row →
        Precedence store attempt row outcome) ∧
    ∀ fault,
      store.call (.applyWebauthnSubmission attempt signer entropy) = .error fault →
      (store.step (.applyWebauthnSubmission attempt signer entropy)).database =
        store.database := by
  refine ⟨?_, ?_⟩
  · intro outcome after h
    obtain ⟨seen, hSeen, hOutcome⟩ := applyWebauthnSubmission_outcome h
    refine ⟨?_, ?_⟩
    · intro hAccepted
      rcases hOutcome with ⟨-, hExpired⟩ | ⟨-, hStale⟩ | ⟨assertion, hGuarded⟩
      · rw [hExpired] at hAccepted
        exact absurd hAccepted (by decide)
      · rw [hStale] at hAccepted
        exact absurd hAccepted (by decide)
      · exact ⟨seen, assertion, hGuarded⟩
    · intro row hRow
      have hSame : row = seen := Option.some.inj (hRow.symm.trans hSeen)
      subst hSame
      rcases hOutcome with ⟨hElapsed, hExpired⟩ | ⟨hInTime, hStale⟩ | ⟨_, hGuards, -⟩
      · exact ⟨fun _ => hExpired, fun hInTime => absurd hElapsed hInTime⟩
      · exact ⟨fun hElapsed => absurd hElapsed hInTime, fun _ _ => hStale⟩
      · exact ⟨fun hElapsed => absurd hElapsed hGuards.not_elapsed,
          fun _ hChanged => absurd hGuards.generation hChanged⟩
  · intro fault hFailed
    rw [BrokerStore.step, hFailed]

end Submission

/-- The store in which the sample request awaits its decision. -/
def sampleStore [Cryptography] : BrokerStore :=
  run BrokerStore.step BrokerStore.empty approvedRun.dropLast

/-- The approval of the sample request has passed every guard. -/
theorem decision_guarded_sample :
    let _ : Cryptography := keyedHashCryptography
    ∃ outcome after,
      applyWebauthnSubmission sampleStore.deviceIdBytes
        (Snapshots.at sampleStore.database.toTables) sampleAttempt sampleSigner none
        sampleStore.database = .ok (outcome, after) ∧
      ∃ row assertion,
        DecisionGuards sampleStore sampleAttempt sampleSigner row assertion
          .approved := by
  intro _
  have hOutcome : (applyWebauthnSubmission sampleStore.deviceIdBytes
      (Snapshots.at sampleStore.database.toTables) sampleAttempt sampleSigner none
      sampleStore.database).map (fun result => result.1.state) = .ok .approved := by
    decide +kernel
  obtain ⟨⟨outcome, after⟩, hApplied, hState⟩ := map_eq_ok_iff.mp hOutcome
  change outcome.state = .approved at hState
  have hGuarded := (decision_guarded sampleStore sampleAttempt sampleSigner none).1
    outcome after hApplied
  obtain ⟨row, assertion, hGuards, -⟩ := hGuarded.1 (Or.inl hState)
  rw [hState] at hGuards
  exact ⟨outcome, after, hApplied, row, assertion, hGuards⟩

end Broker
end RootPermit
