import RootPermit.Broker.Acceptance
import RootPermit.Broker.Race
import RootPermit.Foundation.HighWater

/-!
# Signature counters

An authenticator counts its signatures, and a counter that does not rise tells of a
copied key.  The store keeps one number for each pinned credential; here it is compared
with the assertions that were accepted since the credentials were last replaced, whatever
the handles of the database do in between (`sign_counts`).

* `Ledger` — the shared store with the assertions that were accepted;
* `Call.credentials_kept` — which calls leave the credentials alone;
* `credentials_of_accepted` — an accepted assertion raises the counter of its
  credential;
* `counterAnomaly_iff` — what is reported about an assertion.
-/

namespace RootPermit
namespace Broker

open Foundation Protocol WebAuthn

/-! ### Accepted assertions -/

section Ledger

variable [Cryptography]

/-- The assertion with which an act has decided a request. -/
def acceptedAssertion (shared : SharedStore) : Act → Option VerifiedAssertion
  | .call index (.applyWebauthnSubmission attempt signer entropy) => do
      let handle ← shared.handles[index]?
      let snapshots := handle.snapshots shared.database.toTables
      match attempt.read handle.deviceIdBytes snapshots,
        applyWebauthnSubmission handle.deviceIdBytes snapshots attempt signer entropy
          shared.database with
      | .ok (.decided _ verified), .ok (outcome, _) =>
          if outcome.state = decidedState verified.decision then some verified else none
      | _, _ => none
  | _ => none

/-- The act has replaced the credentials. -/
def replacesCredentials (shared : SharedStore) : Act → Bool
  | .call index (.replaceCredentials generation credentials) =>
      match shared.handles[index]? with
      | some handle =>
          (shared.perform handle (.replaceCredentials generation credentials)).isOk
      | none => false
  | _ => false

/-- A shared store, and the assertions that were accepted since its credentials were
last replaced. -/
structure Ledger where
  shared : SharedStore
  uses : List VerifiedAssertion

namespace Ledger

def empty : Ledger where
  shared := SharedStore.empty
  uses := []

def step (ledger : Ledger) (act : Act) : Ledger where
  shared := ledger.shared.step act
  uses :=
    if replacesCredentials ledger.shared act then []
    else ledger.uses ++ (acceptedAssertion ledger.shared act).toList

end Ledger

/-- The highest counter that a credential was used with. -/
def highestCount (uses : List VerifiedAssertion) (credentialId : Bytes) : Nat :=
  highWater VerifiedAssertion.credentialId (fun use => use.signCount.toNat) uses
    credentialId

/-- Nothing comes between the last read of the act and its transaction. -/
def ReadsCredentialsLast (shared : SharedStore) (act : Act) : Prop :=
  ∀ index handle call, act = .call index call → shared.handles[index]? = some handle →
    handle.reads.length ≤ 4

/-- The counters of the store are those of the assertions that were accepted. -/
structure CountsUses (ledger : Ledger) : Prop where
  stored : ∀ row ∈ ledger.shared.database.credentials,
    row.signCount.toInt = highestCount ledger.uses row.credentialId
  reported : ∀ act verified, acceptedAssertion ledger.shared act = some verified →
    ReadsCredentialsLast ledger.shared act →
    (verified.counterAnomaly = true ↔ verified.signCount ≠ 0 ∧
      ∃ use ∈ ledger.uses, use.credentialId = verified.credentialId ∧
        verified.signCount ≤ use.signCount)

end Ledger

/-! ### Calls that leave the credentials alone -/

section Kept

variable {before between after : Database} {requestId : PublicId}

/-- Rows of the credentials, as they were. -/
def CredentialsKept (before after : Database) : Prop :=
  after.credentials = before.credentials

theorem CredentialsKept.trans (h : CredentialsKept before between)
    (h' : CredentialsKept between after) : CredentialsKept before after :=
  Eq.trans h' h

theorem updateRequest_credentials {change : RequestRow → RequestRow} {result : Unit}
    (h : updateRequest requestId change before = .ok (result, after)) :
    CredentialsKept before after := by
  rw [CredentialsKept, updateRequest_eq_ok_iff.mp h]
  rfl

variable [Cryptography]

theorem appendTransition_credentials {expected : Option RequestState}
    {next : RequestState} {reason : TransitionReason} {result : Unit}
    (h : appendTransition requestId expected next reason before = .ok (result, after)) :
    CredentialsKept before after := by
  obtain ⟨_, _, -, -, -, hAfter⟩ := appendTransition_eq_ok h
  rw [CredentialsKept, hAfter]
  rfl

theorem createReceipt_credentials {state : RequestState} {signer : BrokerSigningKey}
    {nowUtc : Int64} {evidence : List CborValue} {entropy : Entropy} {result : Bytes}
    (h : createReceipt requestId state signer nowUtc evidence entropy before =
      .ok (result, after)) : CredentialsKept before after := by
  obtain ⟨_, _, -, -, -, -, -, hAfter⟩ := createReceipt_eq_ok h
  rw [CredentialsKept, hAfter]
  rfl

theorem transitionTerminal_credentials {expected next : RequestState}
    {signer : BrokerSigningKey} {nowUtc : Int64} {entropy : Entropy} {result : Bytes}
    (h : transitionTerminal requestId expected next signer nowUtc entropy before =
      .ok (result, after)) : CredentialsKept before after := by
  obtain ⟨-, -, between, hAppend, hReceipt⟩ := transitionTerminal_runs h
  exact (appendTransition_credentials hAppend).trans (createReceipt_credentials hReceipt)

theorem expireAll_credentials {signer : BrokerSigningKey} {nowUtc : Int64}
    {requestIds : List String} {entropy : Nat → Entropy} {changed : Nat}
    (h : expireAll signer nowUtc requestIds entropy before = .ok (changed, after)) :
    CredentialsKept before after := by
  induction requestIds generalizing before entropy changed with
  | nil =>
      rw [expireAll, run_pure_eq_ok_iff] at h
      rw [h.2]
      rfl
  | cons text rest ih =>
      simp only [expireAll, run_bind_eq_ok_iff, attempt_eq_ok_iff, run_pure_eq_ok_iff] at h
      obtain ⟨requestId, _, ⟨-, rfl⟩, _, between, hAppend, _, closed, hReceipt, count,
        _, hRest, -, rfl⟩ := h
      exact ((appendTransition_credentials hAppend).trans
        (createReceipt_credentials hReceipt)).trans (ih hRest)

/-- Only a decision and a replacement change the credentials. -/
theorem Call.credentials_kept {call : Call} {deviceIdBytes result : ByteArr 16}
    {snapshots : Snapshots}
    (h : call.transaction deviceIdBytes snapshots before = .ok (result, after))
    (hDecision : ∀ attempt signer entropy,
      call ≠ .applyWebauthnSubmission attempt signer entropy)
    (hReplacement : ∀ generation credentials,
      call ≠ .replaceCredentials generation credentials) :
    CredentialsKept before after := by
  cases call with
  | reopen =>
      rw [Call.transaction, query_eq_ok_iff] at h
      rw [h.2]
      rfl
  | initializeIdentity signer entropy =>
      obtain ⟨pinned, hAfter, -⟩ := initializeIdentity_eq_ok h
      rw [CredentialsKept, hAfter]
  | replaceCredentials generation credentials =>
      exact absurd rfl (hReplacement generation credentials)
  | startBoot bootEpoch signer nowUtc entropy =>
      obtain ⟨_, h⟩ := ran_of_transaction h
      obtain ⟨epoch, -, ⟨-, -, rfl⟩ | ⟨-, -, between, hExpire, hAfter⟩⟩ :=
        startBoot_runs h
      · rfl
      · rw [CredentialsKept, hAfter]
        exact expireAll_credentials hExpire
  | submit request policy =>
      obtain ⟨_, h⟩ := ran_of_transaction h
      rcases submit_eq_ok h with ⟨rfl, -⟩ | ⟨generation, -, -, -, -, hAfter⟩
      · rfl
      · rw [CredentialsKept, hAfter]
        rfl
  | transitionNonterminal id expected next =>
      obtain ⟨_, h⟩ := ran_of_transaction h
      obtain ⟨-, _, _, -, -, -, hAfter⟩ := transitionNonterminal_eq_ok h
      rw [CredentialsKept, hAfter]
      rfl
  | prepareForDecision id plan context signer =>
      obtain ⟨_, h⟩ := ran_of_transaction h
      obtain ⟨_, _, _, _, _, _, _, between, -, -, -, -, -, -, hAppend, hUpdate⟩ :=
        prepareForDecision_runs h
      exact (appendTransition_credentials hAppend).trans
        (updateRequest_credentials hUpdate)
  | applyWebauthnSubmission decision signer entropy =>
      exact absurd rfl (hDecision decision signer entropy)
  | transitionTerminal id expected next signer nowUtc entropy =>
      obtain ⟨_, h⟩ := ran_of_transaction h
      exact transitionTerminal_credentials h
  | reconcileRecovery id succeeded evidence signer nowUtc entropy =>
      obtain ⟨_, h⟩ := ran_of_transaction h
      obtain ⟨-, -, between, middle, hAppend, hUpdate, hReceipt⟩ :=
        reconcileRecovery_runs h
      exact ((appendTransition_credentials hAppend).trans
        (updateRequest_credentials hUpdate)).trans (createReceipt_credentials hReceipt)

/-! ### Calls that change the credentials -/

/-- The rows after the counter of a credential was raised. -/
def raised (verified : VerifiedAssertion) (rows : List CredentialRow) :
    List CredentialRow :=
  Table.update (fun row => decide (row.credentialId = verified.credentialId))
    (fun row => { row with
      signCount := max row.signCount (Int64.ofNat verified.signCount.toNat) }) rows

/-- A decision raises the counter of the credential it was made with, and any other
outcome leaves the credentials alone. -/
theorem applyWebauthnSubmission_credentials {deviceIdBytes : ByteArr 16}
    {snapshots : Snapshots} {attempt : DecisionAttempt} {signer : BrokerSigningKey}
    {entropy : Entropy} {outcome : DecisionOutcome}
    (h : applyWebauthnSubmission deviceIdBytes snapshots attempt signer entropy before =
      .ok (outcome, after)) :
    (∃ context verified,
      attempt.read deviceIdBytes snapshots = .ok (.decided context verified) ∧
      outcome.state = decidedState verified.decision ∧
      after.credentials = raised verified before.credentials) ∨
    (∀ context verified,
      attempt.read deviceIdBytes snapshots = .ok (.decided context verified) →
      outcome.state ≠ decidedState verified.decision) ∧ CredentialsKept before after := by
  simp only [applyWebauthnSubmission, run_bind_eq_ok_iff, attempt_eq_ok_iff] at h
  obtain ⟨reading, _, ⟨hRead, rfl⟩, h⟩ := h
  cases reading with
  | close next =>
      simp only [run_bind_eq_ok_iff, run_pure_eq_ok_iff] at h
      obtain ⟨_, _, hTerminal, -, rfl⟩ := h
      refine Or.inr ⟨?_, transitionTerminal_credentials hTerminal⟩
      intro context verified hDecided
      rw [hRead] at hDecided
      cases hDecided
  | decided context verified =>
      cases (commitDecision_runs h).2 with
      | stale generation between receipt _ _ hAppend hReceipt =>
          refine Or.inr ⟨?_, (appendTransition_credentials hAppend).trans
            (createReceipt_credentials hReceipt)⟩
          intro _ other _ hState
          cases hOther : other.decision <;> rw [hOther] at hState <;> cases hState
      | closed between middle receipt _ _ hAppend hRaise hReceipt =>
          refine Or.inl ⟨context, verified, hRead, rfl, ?_⟩
          exact Eq.trans (createReceipt_credentials hReceipt)
            (raiseSignCount_credentials hAppend hRaise)
      | opened between _ _ hAppend hRaise =>
          exact Or.inl ⟨context, verified, hRead, rfl,
            raiseSignCount_credentials hAppend hRaise⟩

/-- An act accepts an assertion when its reads verify it and its transaction decides the
request with it. -/
inductive Accepts (shared : SharedStore) : Act → VerifiedAssertion → Prop
  | decided (index : Nat) (handle : Handle) (attempt : DecisionAttempt)
      (signer : BrokerSigningKey) (entropy : Entropy) (context : ApprovalContext)
      (verified : VerifiedAssertion) (outcome : DecisionOutcome) (after : Database)
      (hHandle : shared.handles[index]? = some handle)
      (hRead : attempt.read handle.deviceIdBytes
        (handle.snapshots shared.database.toTables) = .ok (.decided context verified))
      (hApply : applyWebauthnSubmission handle.deviceIdBytes
        (handle.snapshots shared.database.toTables) attempt signer entropy
        shared.database = .ok (outcome, after))
      (hState : outcome.state = decidedState verified.decision) :
      Accepts shared (.call index (.applyWebauthnSubmission attempt signer entropy))
        verified

theorem acceptedAssertion_eq_some_iff {shared : SharedStore} {act : Act}
    {verified : VerifiedAssertion} :
    acceptedAssertion shared act = some verified ↔ Accepts shared act verified := by
  constructor
  · intro h
    unfold acceptedAssertion at h
    split at h
    · rename_i index attempt signer entropy
      obtain ⟨handle, hHandle, h⟩ := Option.bind_eq_some_iff.mp h
      dsimp only at h
      split at h
      · rename_i context found outcome after hRead hApply
        split_ifs at h with hState
        rw [Option.some.injEq] at h
        subst h
        exact .decided index handle attempt signer entropy context found outcome after
          hHandle hRead hApply hState
      · cases h
    · cases h
  · rintro ⟨index, handle, attempt, signer, entropy, context, verified, outcome, after,
      hHandle, hRead, hApply, hState⟩
    simp only [acceptedAssertion, hHandle, Option.bind_eq_bind, Option.bind_some, hRead,
      hApply, if_pos hState]

/-- An act that accepts nothing has not raised a counter. -/
theorem acceptedAssertion_eq_none {shared : SharedStore} {act : Act}
    (h : ∀ verified, ¬ Accepts shared act verified) :
    acceptedAssertion shared act = none := by
  cases hAccepted : acceptedAssertion shared act with
  | none => rfl
  | some verified => exact absurd (acceptedAssertion_eq_some_iff.mp hAccepted) (h verified)

/-- An act that replaces the credentials is a replacement that succeeds. -/
theorem replacesCredentials_iff {shared : SharedStore} {act : Act} :
    replacesCredentials shared act = true ↔
      ∃ index handle generation credentials result,
        act = .call index (.replaceCredentials generation credentials) ∧
        shared.handles[index]? = some handle ∧
        shared.perform handle (.replaceCredentials generation credentials) =
          .ok result := by
  constructor
  · intro h
    unfold replacesCredentials at h
    split at h
    · rename_i index generation credentials
      cases hHandle : shared.handles[index]? with
      | none => simp [hHandle] at h
      | some handle =>
          cases hOutcome : shared.perform handle
              (.replaceCredentials generation credentials) with
          | error fault => simp [hHandle, hOutcome, Except.isOk, Except.toBool] at h
          | ok result =>
              exact ⟨index, handle, generation, credentials, result, rfl, hHandle,
                hOutcome⟩
    · cases h
  · rintro ⟨index, handle, generation, credentials, result, rfl, hHandle, hOutcome⟩
    simp [replacesCredentials, hHandle, hOutcome, Except.isOk, Except.toBool]

/-- What an act does to the credentials, and what the ledger notes of it. -/
theorem credentials_step (shared : SharedStore) (act : Act) :
    (replacesCredentials shared act = true ∧
      ∀ row ∈ (shared.step act).database.credentials, row.signCount = 0) ∨
    (replacesCredentials shared act = false ∧
      ((∃ verified, Accepts shared act verified ∧
        (shared.step act).database.credentials =
          raised verified shared.database.credentials) ∨
      ((∀ verified, ¬ Accepts shared act verified) ∧
        CredentialsKept shared.database (shared.step act).database))) := by
  cases hReplaces : replacesCredentials shared act with
  | true =>
      obtain ⟨index, handle, generation, credentials, result, rfl, hHandle, hDone⟩ :=
        replacesCredentials_iff.mp hReplaces
      have hAfter : (shared.step (.call index
          (.replaceCredentials generation credentials))).database = _ :=
        SharedStore.step_call hHandle
      rw [hDone] at hAfter
      obtain ⟨_, hReplace⟩ := ran_of_transaction hDone
      obtain ⟨-, active, -, hTables⟩ := replaceCredentials_eq_ok hReplace
      refine Or.inl ⟨rfl, fun row hRow => ?_⟩
      rw [hAfter, hTables] at hRow
      obtain ⟨pin, -, rfl⟩ := List.mem_map.mp hRow
      rfl
  | false =>
      refine Or.inr ⟨rfl, ?_⟩
      by_cases hAccepts : ∃ verified, Accepts shared act verified
      · obtain ⟨verified, hAccepts⟩ := hAccepts
        refine Or.inl ⟨verified, hAccepts, ?_⟩
        cases hAccepts with
        | decided index handle attempt signer entropy context _ outcome after hHandle hRead
            hApply hState =>
            have hDone : shared.perform handle
                (.applyWebauthnSubmission attempt signer entropy) =
                  .ok (handle.deviceIdBytes, after) := by
              rw [SharedStore.perform, Call.transaction, run_bind_eq_ok_iff]
              exact ⟨outcome, after, hApply, rfl⟩
            rw [SharedStore.step_call hHandle, hDone]
            rcases applyWebauthnSubmission_credentials hApply with
              ⟨_, found, hFound, -, hRaised⟩ | ⟨hOther, -⟩
            · rw [hRead] at hFound
              cases hFound
              exact hRaised
            · exact absurd hState (hOther context verified hRead)
      · have hNone : ∀ verified, ¬ Accepts shared act verified :=
          fun verified hVerified => hAccepts ⟨verified, hVerified⟩
        refine Or.inr ⟨hNone, ?_⟩
        rcases shared.step_database act with hSame | hDone
        · rw [hSame]
          rfl
        · obtain ⟨index, handle, call, result, rfl, hHandle, hDone⟩ := hDone
          by_cases hDecision : ∃ attempt signer entropy,
              call = .applyWebauthnSubmission attempt signer entropy
          · obtain ⟨attempt, signer, entropy, rfl⟩ := hDecision
            obtain ⟨outcome, hApply⟩ := ran_of_transaction hDone
            rcases applyWebauthnSubmission_credentials hApply with
              ⟨context, verified, hRead, hState, -⟩ | ⟨-, hKept⟩
            · exact absurd (.decided index handle attempt signer entropy context verified
                outcome _ hHandle hRead hApply hState) (hNone verified)
            · exact hKept
          · refine Call.credentials_kept hDone
              (fun attempt signer entropy hCall => hDecision ⟨_, _, _, hCall⟩) ?_
            rintro generation credentials rfl
            rw [replacesCredentials_iff.mpr
              ⟨index, handle, generation, credentials, _, rfl, hHandle, hDone⟩] at hReplaces
            cases hReplaces

end Kept

/-! ### The counters -/

section Counters

theorem toInt_max_ofNat (count : Int64) (number : UInt32) :
    (max count (Int64.ofNat number.toNat)).toInt = max count.toInt number.toNat := by
  have hNumber : (Int64.ofNat number.toNat).toInt = number.toNat :=
    Int64.toInt_ofNat_of_lt (number.toNat_lt.trans (by decide))
  have hMax : max count (Int64.ofNat number.toNat) =
      if count ≤ Int64.ofNat number.toNat then Int64.ofNat number.toNat else count := rfl
  by_cases hRises : count ≤ Int64.ofNat number.toNat
  · rw [hMax, if_pos hRises, hNumber]
    rw [Int64.le_iff_toInt_le, hNumber] at hRises
    exact (max_eq_right hRises).symm
  · rw [hMax, if_neg hRises]
    rw [Int64.le_iff_toInt_le, hNumber, not_le] at hRises
    exact (max_eq_left hRises.le).symm

theorem highestCount_concat (uses : List VerifiedAssertion) (use : VerifiedAssertion)
    (credentialId : Bytes) :
    highestCount (uses ++ [use]) credentialId =
      if use.credentialId = credentialId then
        max (highestCount uses credentialId) use.signCount.toNat
      else highestCount uses credentialId :=
  highWater_concat _ _ uses use credentialId

theorem previousSignCount_of_pin {row : CredentialRow} {pinned : PinnedCredential}
    (h : pinCredential row = .ok pinned) :
    (pinned.previousSignCount.toNat : Int) = row.signCount.toInt := by
  simp only [pinCredential, bind_eq_ok_iff, orFault_eq_ok_iff, toU32?_eq_some_iff,
    pure_eq_ok, Except.ok.injEq] at h
  obtain ⟨_, -, _, hCount, rfl⟩ := h
  exact hCount

/-- A counter does not rise above the highest one exactly when it was reached before. -/
theorem not_rises_iff {uses : List VerifiedAssertion} {credentialId : Bytes}
    {previous count : UInt32} (h : previous.toNat = highestCount uses credentialId) :
    previous ≠ 0 ∧ count ≠ 0 ∧ count ≤ previous ↔
      count ≠ 0 ∧ ∃ use ∈ uses, use.credentialId = credentialId ∧
        count ≤ use.signCount := by
  constructor
  · rintro ⟨-, hCount, hReached⟩
    have hPositive : 0 < count.toNat := by
      rw [Nat.pos_iff_ne_zero]
      exact fun hZero => hCount (UInt32.toNat_inj.mp hZero)
    rw [UInt32.le_iff_toNat_le, h] at hReached
    exact ⟨hCount, (le_highWater_iff _ _ hPositive).mp hReached⟩
  · rintro ⟨hCount, hUse⟩
    have hPositive : 0 < count.toNat := by
      rw [Nat.pos_iff_ne_zero]
      exact fun hZero => hCount (UInt32.toNat_inj.mp hZero)
    have hReached : count.toNat ≤ highestCount uses credentialId :=
      (le_highWater_iff _ _ hPositive).mpr hUse
    rw [← h] at hReached
    refine ⟨?_, hCount, UInt32.le_iff_toNat_le.mpr hReached⟩
    rintro rfl
    exact absurd hReached (Nat.not_le_of_lt hPositive)

variable [Cryptography]

/-- The credential that an assertion was verified with, and what is reported of the
counter. -/
theorem verifySubmission_counterAnomaly {verifier : ReviewedWebAuthnVerifier}
    {pendingContext : ApprovalContext} {pinnedCredentials : List PinnedCredential}
    {submission : DecisionSubmission} {verified : VerifiedAssertion}
    (h : verifySubmission verifier pendingContext pinnedCredentials submission =
      .ok verified) :
    ∃ pinned ∈ pinnedCredentials, pinned.credentialId = verified.credentialId ∧
      (verified.counterAnomaly = true ↔ pinned.previousSignCount ≠ 0 ∧
        verified.signCount ≠ 0 ∧ verified.signCount ≤ pinned.previousSignCount) := by
  simp only [verifySubmission, bind_eq_ok_iff, mapError_eq_ok_iff, rejectIf_eq_ok_iff,
    orFault_eq_ok_iff, checkAssertion_eq_ok_iff, pure_eq_ok, Except.ok.injEq] at h
  obtain ⟨_, -, _, -, pinned, hPinned, assertion, -, _, hBinds, rfl⟩ := h
  obtain ⟨hMem, hServes⟩ := pinnedFor_eq_ok hPinned
  exact ⟨pinned, hMem, hServes.credentialId.trans hBinds.credentialId.symm,
    decide_eq_true_iff⟩

/-- The counters of the store after an act. -/
theorem stored_step {ledger : Ledger} (act : Act)
    (h : ∀ row ∈ ledger.shared.database.credentials,
      row.signCount.toInt = highestCount ledger.uses row.credentialId) :
    ∀ row ∈ (ledger.step act).shared.database.credentials,
      row.signCount.toInt = highestCount (ledger.step act).uses row.credentialId := by
  intro row hRow
  rcases credentials_step ledger.shared act with
    ⟨hReplaces, hFresh⟩ | ⟨hReplaces, ⟨verified, hAccepts, hRaised⟩ | ⟨hNone, hKept⟩⟩
  · rw [hFresh row hRow, Ledger.step, hReplaces, if_pos rfl]
    rfl
  · have hUses : (ledger.step act).uses = ledger.uses ++ [verified] := by
      rw [Ledger.step, hReplaces, acceptedAssertion_eq_some_iff.mpr hAccepts]
      rfl
    change row ∈ (ledger.shared.step act).database.credentials at hRow
    rw [hRaised] at hRow
    obtain ⟨old, hOld, rfl⟩ := List.mem_map.mp hRow
    rw [hUses, highestCount_concat]
    by_cases hSame : old.credentialId = verified.credentialId
    · rw [if_pos (decide_eq_true hSame), if_pos hSame.symm, toInt_max_ofNat, h old hOld]
      exact (Nat.cast_max _ _).symm
    · rw [if_neg (by simpa using hSame), if_neg fun hOther => hSame hOther.symm, h old hOld]
  · have hUses : (ledger.step act).uses = ledger.uses := by
      rw [Ledger.step, hReplaces, acceptedAssertion_eq_none hNone]
      exact List.append_nil _
    rw [hUses]
    apply h
    rw [← hKept]
    exact hRow

/-- What is reported of an assertion that is accepted right after the credentials were
read. -/
theorem counterAnomaly_iff {ledger : Ledger} {act : Act} {verified : VerifiedAssertion}
    (h : ∀ row ∈ ledger.shared.database.credentials,
      row.signCount.toInt = highestCount ledger.uses row.credentialId)
    (hAccepts : Accepts ledger.shared act verified)
    (hLast : ReadsCredentialsLast ledger.shared act) :
    verified.counterAnomaly = true ↔ verified.signCount ≠ 0 ∧
      ∃ use ∈ ledger.uses, use.credentialId = verified.credentialId ∧
        verified.signCount ≤ use.signCount := by
  cases hAccepts with
  | decided index handle attempt signer entropy context _ outcome after hHandle hRead =>
      have hCurrent : (handle.snapshots ledger.shared.database.toTables).credentials =
          ledger.shared.database.toTables := by
        have hReads := hLast index handle _ rfl hHandle
        show handle.reads.getD 4 _ = _
        rw [List.getD_eq_getElem?_getD, List.getElem?_eq_none hReads]
        rfl
      cases DecisionAttempt.read_eq_ok_iff.mp hRead with
      | decided _ credentials _ _ _ _ hCredentials hVerified =>
          rw [hCurrent] at hCredentials
          obtain ⟨pinned, hPinned, hId, hReported⟩ :=
            verifySubmission_counterAnomaly hVerified
          obtain ⟨row, hRow, -, hPin⟩ := pinnedCredentials_eq_ok hCredentials hPinned
          have hPrevious : pinned.previousSignCount.toNat =
              highestCount ledger.uses verified.credentialId := by
            have hCount := h row hRow
            rw [← (pinCredential_eq_ok hPin).1, hId, ← previousSignCount_of_pin hPin]
              at hCount
            exact Int.ofNat_inj.mp hCount
          rw [hReported]
          exact not_rises_iff hPrevious

/-- Whatever the handles of a database do, the counter that is stored for a credential
is the highest one that it was used with since the credentials were last replaced; and
an assertion that is accepted right after the credentials were read is reported exactly
when its counter does not rise above all of those. -/
theorem sign_counts (acts : List Act) : CountsUses (run Ledger.step Ledger.empty acts) := by
  have hStored : ∀ row ∈ (run Ledger.step Ledger.empty acts).shared.database.credentials,
      row.signCount.toInt =
        highestCount (run Ledger.step Ledger.empty acts).uses row.credentialId :=
    run_invariant (I := fun ledger : Ledger =>
      ∀ row ∈ ledger.shared.database.credentials,
        row.signCount.toInt = highestCount ledger.uses row.credentialId)
      (fun row hRow => by cases hRow) (fun ledger act h => stored_step act h) acts
  refine ⟨hStored, fun act verified hAccepted hLast => ?_⟩
  exact counterAnomaly_iff hStored (acceptedAssertion_eq_some_iff.mp hAccepted) hLast

end Counters

end Broker
end RootPermit
