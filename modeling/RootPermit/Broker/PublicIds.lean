import RootPermit.Broker.Authenticity
import RootPermit.Broker.Corruption
import RootPermit.Broker.Effects

/-!
# Public identifiers and the bytes they stand for

A public identifier is meant to be sixteen bytes in base64url form.  Its parser looks at
the number and the class of the characters only, but twenty-two characters carry four
bits more than sixteen bytes, and the decoder rejects those that are not zero.

* `PublicId.bytes?_ne_none_iff` — the last character decides;
* `blameless_iff` — an id that stands for no bytes makes an operation fail;
* `publicId_exact_iff` — the texts for which the parser keeps its promise.
-/

namespace RootPermit
namespace Broker

open Foundation Protocol WebAuthn

/-! ### Which identifiers stand for bytes -/

/-- The last characters whose low four bits are zero: `A`, `Q`, `g` and `w`. -/
def EndsOnByte (value : String) : Prop :=
  ∀ last ∈ (utf8 value).getLast?, last ∈ [0x41, 0x51, 0x67, 0x77]

theorem sextet?_of_isBase64url {byte : UInt8} (h : isBase64url byte = true) :
    ∃ sextet, Base64Url.sextet? byte = some sextet ∧
      (sextet % 16 = 0 ↔ byte ∈ ([0x41, 0x51, 0x67, 0x77] : Bytes)) := by
  have hAll : ∀ value < 256, isBase64url (UInt8.ofNat value) = true →
      ∃ sextet ∈ Base64Url.sextet? (UInt8.ofNat value),
        (sextet % 16 = 0 ↔ UInt8.ofNat value ∈ ([0x41, 0x51, 0x67, 0x77] : Bytes)) := by
    decide +kernel
  have hByte := hAll byte.toNat byte.toNat_lt
  rw [UInt8.ofNat_toNat] at hByte
  exact hByte h

namespace PublicId

variable {id other : PublicId} {bytes : ByteArr 16}

theorem bytes?_eq_some_iff :
    id.bytes? = some bytes ↔ Base64Url.encodeText bytes.val = id.asStr := by
  constructor
  · intro h
    obtain ⟨decoded, hDecoded, hBytes⟩ := Option.bind_eq_some_iff.mp h
    rw [ByteArr.ofBytes?_eq_some_iff] at hBytes
    apply utf8_injective
    rw [Base64Url.utf8_encodeText, hBytes]
    exact Base64Url.encode_of_decode hDecoded
  · intro h
    unfold bytes?
    rw [← h, Base64Url.utf8_encodeText, Base64Url.decode_encode, Option.bind_some,
      ByteArr.ofBytes?_val]

/-- The ids that stand for bytes are those that could come from `PublicId::random`. -/
theorem isRandom_iff : id.IsRandom ↔ id.bytes? ≠ none := by
  constructor
  · rintro ⟨bytes, hRandom⟩
    obtain ⟨found, hFound, hText, -⟩ := PublicId.random_eq_ok bytes
    rw [hRandom, Except.ok.injEq] at hFound
    rw [hFound, bytes?_eq_some_iff.mpr hText.symm]
    exact Option.some_ne_none bytes
  · intro h
    obtain ⟨bytes, hBytes⟩ := Option.ne_none_iff_exists'.mp h
    obtain ⟨found, hFound, hText, -⟩ := PublicId.random_eq_ok bytes
    have hSame : id = found :=
      PublicId.ext_iff'.mpr ((bytes?_eq_some_iff.mp hBytes).symm.trans hText.symm)
    exact ⟨bytes, hSame ▸ hFound⟩

/-- Twenty-two characters that are decoded at all are decoded to sixteen bytes. -/
theorem bytes?_ne_none_iff : id.bytes? ≠ none ↔ EndsOnByte id.asStr := by
  have hSymbols : ∀ byte ∈ utf8 id.asStr, Base64Url.sextet? byte ≠ none := by
    intro byte hByte
    obtain ⟨sextet, hSextet, -⟩ := sextet?_of_isBase64url (isBase64url_of_mem hByte)
    rw [hSextet]
    exact Option.some_ne_none sextet
  have hDecode := Base64Url.decode_ne_none_iff (by rw [length_utf8]; decide) hSymbols
  have hSame : id.bytes? ≠ none ↔ Base64Url.decode (utf8 id.asStr) ≠ none := by
    unfold bytes?
    cases hDecoded : Base64Url.decode (utf8 id.asStr) with
    | none => simp
    | some decoded =>
        have hLength := congrArg List.length (Base64Url.encode_of_decode hDecoded)
        rw [Base64Url.length_encode, length_utf8] at hLength
        simpa using ByteArr.ofBytes?_ne_none (show decoded.length = 16 by omega)
  rw [hSame, hDecode, length_utf8]
  unfold EndsOnByte
  constructor
  · intro h last hLast
    obtain ⟨sextet, hSextet, hZero⟩ :=
      sextet?_of_isBase64url (isBase64url_of_mem (List.mem_of_getLast? hLast))
    exact hZero.mp (h last hLast sextet hSextet)
  · intro h last hLast sextet hSextet
    obtain ⟨found, hFound, hZero⟩ :=
      sextet?_of_isBase64url (isBase64url_of_mem (List.mem_of_getLast? hLast))
    rw [Option.mem_def.mp hSextet, Option.some.injEq] at hFound
    rw [← hFound] at hZero
    exact hZero.mpr (h last hLast)

/-- No two identifiers stand for the same bytes. -/
theorem eq_of_bytes? (h : id.bytes? = some bytes) (hOther : other.bytes? = some bytes) :
    other = id :=
  PublicId.ext_iff'.mpr
    ((bytes?_eq_some_iff.mp hOther).symm.trans (bytes?_eq_some_iff.mp h))

end PublicId

/-! ### Operations on a request -/

/-- A computation whose result is only passed on fails with its own failure. -/
theorem eq_error_of_return {α β : Type} {transaction : Tx α} {value : β}
    {before : Database} {fault : BrokerError}
    (h : (do let _ ← transaction; return value : Tx β) before = .error fault) :
    transaction before = .error fault := by
  rcases run_bind_eq_error_iff.mp h with hFirst | ⟨_, _, -, hReturn⟩
  · exact hFirst
  · cases hReturn

/-- What makes an operation on a request find the state corrupt, whatever bytes the id of
the request stands for. -/
def Call.OtherCause (requestId : PublicId) (snapshots : Snapshots) (tables : Tables) :
    Call → Prop
  | .startBoot bootEpoch _ _ _ =>
      -- The boot expires another request, whose id stands for no bytes.
      ∃ epoch : Int64, epoch.toInt = bootEpoch.toNat ∧
        ∃ text ∈ workToExpire epoch tables, text ≠ requestId.asStr ∧
          ∀ other : PublicId, other.asStr = text → other.bytes? = none
  | .prepareForDecision _ plan context _ =>
      context.expiresUtc < context.createdUtc ∨
        ∃ row, tables.request? requestId = some row ∧
          (row.packageName ≠ plan.packageName.asStr ∨
            validPackageName row.packageName = false)
  | .applyWebauthnSubmission _ _ _ =>
      (∃ row, snapshots.request.request? requestId = some row ∧
          row.requestExpiresUtc = none) ∨
        ∃ row, snapshots.deadline.request? requestId = some row ∧
          row.deadlineMonoNs = none
  | .reconcileRecovery _ _ evidence _ _ _ => evidence = [] ∨ 65536 < evidence.length
  | _ => False

/-- No operation on the request, and no read of it, finds the state corrupt because of
its id. -/
structure Blameless [Cryptography] (requestId : PublicId) : Prop where
  calls : ∀ (deviceIdBytes : ByteArr 16) (snapshots : Snapshots)
    (request database : Database) (call : Call),
    snapshots.request = request.toTables →
    call.Concerns requestId database.toTables →
    call.transaction deviceIdBytes snapshots database = .error .corruptState →
    call.OtherCause requestId snapshots database.toTables
  approvalContext : ∀ (deviceIdBytes : ByteArr 16) (decision : Decision)
    (relyingParty : WebAuthnRelyingParty) (request : Database) (identity : Tables),
    approvalContext deviceIdBytes requestId decision relyingParty request.toTables
      identity = .error .corruptState →
    ∃ row, request.request? requestId = some row ∧ row.requestExpiresUtc = none
  events : ∀ database : Database,
    events requestId database.toTables = .error .corruptState →
    ∃ row ∈ database.eventsOf requestId, RequestState.fromDb? row.state = none ∨
      TransitionReason.fromCode? row.reason = none
  submit : ∀ (deviceId : String) (submitted : SubmitPackageInstall)
    (policy : PackageInstallPolicy) (database : Database),
    submitted.requestId = requestId →
    submit deviceId submitted policy database ≠ .error .corruptState
  request : ∀ tables, request requestId tables ≠ .error .corruptState

section Operations

variable [Cryptography] {requestId : PublicId}

theorem Blameless.of_bytes (hId : requestId.bytes? ≠ none) : Blameless requestId where
  approvalContext _ _ _ _ _ h := approvalContext_eq_corrupt hId h
  events _ h := events_eq_corrupt h
  submit _ _ _ database _ := submit_avoids database
  request _ := request_ne_corrupt
  calls deviceIdBytes snapshots request database call hRequest hConcerns h := by
    cases call with
    | reopen => cases hConcerns
    | initializeIdentity signer entropy => cases hConcerns
    | replaceCredentials generation credentials => cases hConcerns
    | submit submitted policy => cases hConcerns
    | transitionNonterminal named expected next =>
        exact absurd h ((transitionNonterminal_avoids.bind fun _ _ => .pure _) database)
    | transitionTerminal named expected next signer nowUtc entropy =>
        cases hConcerns
        exact absurd h
          (((transitionTerminal_avoids hId).bind fun _ _ => .pure _) database)
    | startBoot bootEpoch signer nowUtc entropy =>
        obtain ⟨epoch, hEpoch, text, hText, hNone⟩ :=
          startBoot_eq_corrupt (eq_error_of_return h)
        refine ⟨epoch, toI64?_eq_some_iff.mp hEpoch, text, hText, ?_, hNone⟩
        intro hSame
        exact hId (hNone requestId hSame.symm)
    | prepareForDecision named plan context signer =>
        cases hConcerns
        exact prepareForDecision_eq_corrupt hId (eq_error_of_return h)
    | applyWebauthnSubmission decision signer entropy =>
        cases hConcerns
        exact applyWebauthnSubmission_eq_corrupt hRequest hId (eq_error_of_return h)
    | reconcileRecovery named succeeded evidence signer nowUtc entropy =>
        cases hConcerns
        exact reconcileRecovery_eq_corrupt hId (eq_error_of_return h)

/-! ### An id that stands for no bytes -/

/-- Whatever else is right about a request, its preparation finds the state corrupt. -/
theorem prepareForDecision_of_bytes?_eq_none {deviceIdBytes : ByteArr 16}
    {plan : FrozenPlan} {context : PendingRequestContext} {signer : BrokerSigningKey}
    {before : Database} {row : RequestRow} {identity : IdentityRow}
    (hId : requestId.bytes? = none) (hTimes : ¬ context.expiresUtc < context.createdUtc)
    (hIdentity : before.brokerIdentity = some identity) (hNames : identity.Names signer)
    (hRow : before.request? requestId = some row) (hState : row.state = .planning)
    (hPackage : row.packageName = plan.packageName.asStr) :
    prepareForDecision deviceIdBytes requestId plan context signer before =
      .error .corruptState := by
  have hEnsured : ensureIdentity signer before = .ok ((), before) :=
    ensureIdentity_eq_ok_iff.mpr ⟨⟨identity, hIdentity, hNames⟩, rfl⟩
  have hPlanning : planningRow requestId before.toTables = .ok row := by
    simp [planningRow, orFault, hRow, rejectIf, hState]
  have hFrozen : frozenRequest deviceIdBytes requestId row identity plan context =
      .error .corruptState := by
    simp [frozenRequest, PublicId.bytes, hId, orFault]
  refine run_bind_eq_error_iff.mpr (.inr ⟨(), before, ?_, ?_⟩)
  · exact attempt_eq_ok_iff.mpr ⟨rejectIf_eq_ok_iff.mpr hTimes, rfl⟩
  refine run_bind_eq_error_iff.mpr (.inr ⟨(), before, hEnsured, ?_⟩)
  refine run_bind_eq_error_iff.mpr (.inr ⟨row, before, ?_, ?_⟩)
  · exact query_eq_ok_iff.mpr ⟨hPlanning, rfl⟩
  refine run_bind_eq_error_iff.mpr (.inr ⟨(), before, ?_, ?_⟩)
  · exact attempt_eq_ok_iff.mpr ⟨rejectIf_eq_ok_iff.mpr (not_not_intro hPackage), rfl⟩
  refine run_bind_eq_error_iff.mpr (.inr ⟨identity, before, ?_, ?_⟩)
  · exact query_eq_ok_iff.mpr ⟨orFault_eq_ok_iff.mpr hIdentity, rfl⟩
  exact run_bind_eq_error_iff.mpr (.inl (attempt_eq_error_iff.mpr hFrozen))

/-- No receipt is ever made for a request with such an id. -/
theorem createReceipt_ne_ok {state : RequestState} {signer : BrokerSigningKey}
    {nowUtc : Int64} {evidence : List CborValue} {entropy : Entropy}
    {before after : Database} {result : Bytes} (hId : requestId.bytes? = none) :
    createReceipt requestId state signer nowUtc evidence entropy before ≠
      .ok (result, after) := by
  intro h
  simp only [createReceipt, run_bind_eq_ok_iff, attempt_eq_ok_iff, receiptOf,
    bind_eq_ok_iff, PublicId.bytes, orFault_eq_ok_iff, hId, reduceCtorEq, false_and,
    and_false, exists_false] at h

/-- While it is to be expired, no boot comes to an end. -/
theorem expireAll_ne_ok {signer : BrokerSigningKey} {nowUtc : Int64}
    {requestIds : List String} {entropy : Nat → Entropy} {before after : Database}
    {changed : Nat} (hId : requestId.bytes? = none) (hMem : requestId.asStr ∈ requestIds) :
    expireAll signer nowUtc requestIds entropy before ≠ .ok (changed, after) := by
  induction requestIds generalizing entropy before after changed with
  | nil => cases hMem
  | cons text rest ih =>
      intro h
      simp only [expireAll, run_bind_eq_ok_iff, attempt_eq_ok_iff, mapError_eq_ok_iff,
        PublicId.parse_eq_ok_iff] at h
      obtain ⟨parsed, _, ⟨hParsed, rfl⟩, _, _, -, _, _, hReceipt, _, _, hRest, -⟩ := h
      rcases List.mem_cons.mp hMem with hFirst | hLater
      · have hSame : parsed = requestId :=
          PublicId.ext_iff'.mpr (hParsed.trans hFirst.symm)
        exact createReceipt_ne_ok hId (hSame ▸ hReceipt)
      · exact ih hLater hRest

theorem startBoot_ne_ok {bootEpoch : UInt64} {epoch : Int64} {signer : BrokerSigningKey}
    {nowUtc : Int64} {entropy : Nat → Entropy} {before after : Database} {changed : Nat}
    (hId : requestId.bytes? = none) (hEpoch : epoch.toInt = bootEpoch.toNat)
    (hNew : before.brokerMetadata.bootEpoch ≠ epoch)
    (hMem : requestId.asStr ∈ workToExpire epoch before.toTables) :
    startBoot bootEpoch signer nowUtc entropy before ≠ .ok (changed, after) := by
  intro h
  simp only [startBoot, run_bind_eq_ok_iff, attempt_eq_ok_iff, query_eq_ok_iff,
    orFault_eq_ok_iff, toI64?_eq_some_iff, Except.ok.injEq] at h
  obtain ⟨found, _, ⟨hFound, rfl⟩, _, _, ⟨rfl, rfl⟩, h⟩ := h
  obtain rfl : found = epoch := Int64.toInt_inj.mp (hFound.trans hEpoch.symm)
  rw [if_neg hNew] at h
  simp only [run_bind_eq_ok_iff, ensureIdentity_eq_ok_iff, query_eq_ok_iff,
    Except.ok.injEq] at h
  obtain ⟨_, _, ⟨-, rfl⟩, _, _, ⟨rfl, rfl⟩, _, _, hExpired, -⟩ := h
  exact expireAll_ne_ok hId hMem hExpired

/-- A request that has been submitted and is to be prepared. -/
def submittedTables (requestId : PublicId) : Tables where
  requests := [newRequest "" { sampleRequest with requestId } 0]
  requestEvents := [createdEvent requestId]
  receipts := []
  brokerIdentity := some
    { keyKid := sampleSigner.kid
      publicKey := sampleSigner.publicKey.val
      brokerEpoch := 0
      deviceId := none }
  brokerMetadata := { bootEpoch := 0, credentialGeneration := 0 }
  credentials := []

theorem constraints_submittedTables (requestId : PublicId) :
    Constraints (submittedTables requestId) where
  requestKey := by simp [submittedTables, Table.Keyed]
  requestsIdempotency := by simp [submittedTables, Table.Keyed]
  requestsOneActivePerDevice :=
    (List.filter_sublist.map RequestRow.deviceId).nodup (by simp [submittedTables])
  requestChecks := by
    have hUid : 0 ≤ sampleRequest.requesterUid.asDb := by decide
    simp [submittedTables, newRequest, RequestRow.Checked, NotNegative, HasLength, hUid,
      (inputDigest sampleRequest.packageName).property]
  eventKey := by simp [submittedTables, Table.Keyed]
  eventReferences := by simp [submittedTables, createdEvent, newRequest]
  eventChecks := by
    have hReason : 0 < TransitionReason.created.asDb := by decide
    simp [submittedTables, EventRow.Checked, HasLength, createdEvent, hReason,
      (lifecycleEventDigest requestId 1 none .planning .created).property]
  receiptKey := by simp [submittedTables, Table.Keyed]
  receiptRequest := by simp [submittedTables, Table.Keyed]
  receiptReferences := by simp [submittedTables]
  receiptChecks := by simp [submittedTables]
  identityChecks := by
    simp [submittedTables, IdentityRow.Checked, HasLength, sampleSigner.length_kid,
      sampleSigner.publicKey.property]
  metadataChecks := by simp [submittedTables]
  credentialKey := by simp [submittedTables, Table.Keyed]
  credentialChecks := by simp [submittedTables]

/-- An id is to blame for a failure of some operation exactly when it stands for no
bytes. -/
theorem blameless_iff : Blameless requestId ↔ requestId.bytes? ≠ none := by
  constructor
  · intro h hId
    let database : Database := ⟨submittedTables requestId, constraints_submittedTables _⟩
    have hRow : database.request? requestId =
        some (newRequest "" { sampleRequest with requestId } 0) := by
      simp [database, submittedTables, Tables.request?, Table.lookup, newRequest]
    have hFailed : prepareForDecision (ByteArr.fill 16 0) requestId samplePlan
        samplePendingContext sampleSigner database = .error .corruptState :=
      prepareForDecision_of_bytes?_eq_none hId (by decide) rfl ⟨rfl, rfl⟩ hRow rfl rfl
    have hCause := h.calls (ByteArr.fill 16 0) (Snapshots.at database.toTables) database
      database (.prepareForDecision requestId samplePlan samplePendingContext sampleSigner)
      rfl rfl (run_bind_eq_error_iff.mpr (.inl hFailed))
    rcases hCause with hTimes | ⟨row, hFound, hPackage | hName⟩
    · exact absurd hTimes (by decide)
    · rw [hRow, Option.some.injEq] at hFound
      exact hPackage (hFound ▸ rfl)
    · rw [hRow, Option.some.injEq] at hFound
      have hValid : validPackageName sampleRequest.packageName.asStr = true := by
        decide +kernel
      rw [← hFound] at hName
      exact absurd (hName.symm.trans hValid) Bool.false_ne_true
  · exact Blameless.of_bytes

end Operations

/-! ### The texts of public identifiers -/

/-- What is promised of a text: if it is parsed, it is the text of the bytes that it is
decoded to, and no operation fails because of it; if it is the text of some bytes, it is
parsed and decoded to them; and no other identifier stands for its bytes. -/
structure ExactText [Cryptography] (value : String) : Prop where
  decoded : ∀ id, PublicId.parse value = .ok id →
    ∃ bytes, id.bytes = .ok bytes ∧ Base64Url.encodeText bytes.val = value
  spelled : ∀ bytes : ByteArr 16, Base64Url.encodeText bytes.val = value →
    ∃ id, PublicId.parse value = .ok id ∧ id.bytes = .ok bytes
  blameless : ∀ id, PublicId.parse value = .ok id → Blameless id
  unique : ∀ (id other : PublicId) (bytes : ByteArr 16), PublicId.parse value = .ok id →
    id.bytes = .ok bytes → other.bytes = .ok bytes → other = id

/-- A text keeps the promise exactly when it is not parsed at all or its last character
has no bits to spare. -/
theorem publicId_exact_iff [Cryptography] (value : String) :
    ExactText value ↔ (isPublicId value = true → EndsOnByte value) := by
  constructor
  · intro h hShape
    let id : PublicId := ⟨value, hShape⟩
    obtain ⟨bytes, hBytes, -⟩ := h.decoded id (PublicId.parse_eq_ok_iff.mpr rfl)
    rw [PublicId.bytes, orFault_eq_ok_iff] at hBytes
    exact PublicId.bytes?_ne_none_iff.mp (hBytes ▸ Option.some_ne_none bytes)
  · intro h
    have hStands : ∀ id, PublicId.parse value = .ok id → id.bytes? ≠ none := by
      intro id hId
      rw [PublicId.parse_eq_ok_iff] at hId
      rw [PublicId.bytes?_ne_none_iff, hId]
      exact h (hId ▸ id.parsed)
    refine ⟨?_, ?_, ?_, ?_⟩
    · intro id hId
      obtain ⟨bytes, hBytes⟩ := Option.ne_none_iff_exists'.mp (hStands id hId)
      refine ⟨bytes, orFault_eq_ok_iff.mpr hBytes, ?_⟩
      rw [← PublicId.parse_eq_ok_iff.mp hId]
      exact PublicId.bytes?_eq_some_iff.mp hBytes
    · intro bytes hText
      obtain ⟨id, -, hId, hBytes⟩ := PublicId.random_eq_ok bytes
      exact ⟨id, PublicId.parse_eq_ok_iff.mpr (hId.trans hText), hBytes⟩
    · intro id hId
      exact Blameless.of_bytes (hStands id hId)
    · intro id other bytes _ hBytes hOther
      rw [PublicId.bytes, orFault_eq_ok_iff] at hBytes hOther
      exact PublicId.eq_of_bytes? hBytes hOther

/-- The parser accepts a text that stands for no bytes. -/
theorem spare_bits_are_accepted :
    let _ : Cryptography := keyedHashCryptography
    ¬ ExactText "AAAAAAAAAAAAAAAAAAAAAB" := by
  intro _ h
  have hShape : isPublicId "AAAAAAAAAAAAAAAAAAAAAB" = true := by decide +kernel
  obtain ⟨bytes, hBytes, -⟩ :=
    h.decoded ⟨_, hShape⟩ (PublicId.parse_eq_ok_iff.mpr rfl)
  have hNone : Base64Url.decode (utf8 "AAAAAAAAAAAAAAAAAAAAAB") = none := by
    decide +kernel
  rw [PublicId.bytes, PublicId.bytes?, hNone] at hBytes
  cases hBytes

end Broker
end RootPermit
