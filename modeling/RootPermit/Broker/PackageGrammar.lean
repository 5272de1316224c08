import RootPermit.Broker.Context
import RootPermit.Broker.Progress
import RootPermit.Cli.Arguments
import RootPermit.Protocol.SignedRequest
import RootPermit.Helper.PlanManifest

/-!
# Package names from the command to the helper

Four functions decide what a package name is.  The command and the intake of the
broker admit a digit as the first character, as Debian does; the schema of a request
and the helper do not.  A name with such a digit is admitted, and its request takes
the active slot of the device, but it can not be frozen (`package_grammars_iff`).

* `isBinaryPackageName_eq`, `validPackageName_utf8` — which functions agree;
* `validPackageName_of_isPackageName` — how the two pairs differ;
* `decode_naming_iff` — a request that names a package is read;
* `prepareForDecision_succeeds_iff` — a planned request is frozen.
-/

namespace RootPermit
namespace Broker

open Foundation Protocol

/-- The first byte of a name is a digit. -/
def beginsWithDigit (name : String) : Bool :=
  (utf8 name).head?.any isAsciiDigit

/-! ### The four predicates -/

theorem isAscii_of_isPackageNameByte {byte : UInt8} (h : isPackageNameByte byte = true) :
    Cli.isAscii byte = true := by
  simp only [isPackageNameByte, isAsciiLowercase, isAsciiDigit, Bool.or_eq_true,
    decide_eq_true_eq, beq_iff_eq, UInt8.le_iff_toNat_le, or_assoc] at h
  simp only [Cli.isAscii, decide_eq_true_eq, UInt8.lt_iff_toNat_lt]
  rcases h with ⟨-, hHigh⟩ | ⟨-, hHigh⟩ | rfl | rfl | rfl
  · exact Nat.lt_of_le_of_lt hHigh (by decide)
  · exact Nat.lt_of_le_of_lt hHigh (by decide)
  all_goals decide

/-- The command admits what the intake parses. -/
theorem isBinaryPackageName_eq (name : String) :
    Cli.isBinaryPackageName name = isPackageName name := by
  have hByte : ∀ byte : UInt8, (isAsciiLowercase byte || isAsciiDigit byte ||
      (byte == 0x2b || byte == 0x2d || byte == 0x2e)) = isPackageNameByte byte := by
    intro byte
    unfold isPackageNameByte
    ac_rfl
  have hAscii : ∀ bytes : Bytes, (bytes.all Cli.isAscii && bytes.all isPackageNameByte) =
      bytes.all isPackageNameByte := by
    intro bytes
    rw [Bool.and_eq_right_iff_imp, List.all_eq_true, List.all_eq_true]
    exact fun h byte hMem => isAscii_of_isPackageNameByte (h byte hMem)
  have hFirst : ∀ byte : UInt8, (isAsciiLowercase byte || isAsciiDigit byte) = true →
      isPackageNameByte byte = true := by
    intro byte h
    simp [isPackageNameByte, h]
  unfold Cli.isBinaryPackageName isPackageName
  simp only [hByte, Bool.and_assoc, hAscii]
  cases utf8 name with
  | nil => rfl
  | cons first rest =>
      simp only [List.length_cons, List.head?_cons, Option.any_some, List.all_cons]
      cases hStart : isAsciiLowercase first || isAsciiDigit first with
      | false => simp
      | true => simp [hFirst first hStart]

/-- The helper and the schema read the same names. -/
theorem validPackageName_utf8 (name : String) :
    Helper.validPackageName (utf8 name) = validPackageName name := by
  unfold Helper.validPackageName validPackageName
  cases utf8 name with
  | nil => rfl
  | cons first rest => rfl

/-- Of the names that the intake parses, the schema admits those without a leading
digit. -/
theorem validPackageName_of_isPackageName {name : String}
    (h : isPackageName name = true) : validPackageName name = !beginsWithDigit name := by
  have hClasses : ∀ byte : UInt8, isAsciiLowercase byte = true →
      isAsciiDigit byte = false := by
    intro byte hByte
    simp only [isAsciiLowercase, isAsciiDigit, decide_eq_true_eq, decide_eq_false_iff_not,
      UInt8.le_iff_toNat_le] at hByte ⊢
    have hLow : (0x61 : UInt8).toNat = 97 := rfl
    have hHigh : (0x39 : UInt8).toNat = 57 := rfl
    omega
  unfold isPackageName at h
  unfold validPackageName beginsWithDigit
  cases hBytes : utf8 name with
  | nil =>
      rw [hBytes] at h
      cases h
  | cons first rest =>
      rw [hBytes] at h
      simp only [Bool.and_eq_true, decide_eq_true_eq] at h
      obtain ⟨⟨⟨-, hLong⟩, hFirst⟩, hRest⟩ := h
      have hLength : rest.length + 1 ≤ 255 := by omega
      simp only [hLength, decide_true, hRest, Bool.true_and, Bool.and_true,
        List.head?_cons, Option.any_some]
      rcases Bool.or_eq_true_iff.mp hFirst with hLetter | hDigit
      · rw [hLetter, hClasses first hLetter]
        rfl
      · cases hLetter : isAsciiLowercase first with
        | false => rw [hDigit]; rfl
        | true => rw [hClasses first hLetter] at hDigit; cases hDigit

/-! ### A request that names a package -/

theorem packageInstall_ok_iff {name : String} :
    (∃ input, OperationInput.packageInstall name = .ok input) ↔
      validPackageName name = true := by
  simp only [OperationInput.packageInstall, bind_eq_ok_iff, rejectIf_eq_ok_iff,
    pure_eq_ok, Except.ok.injEq, Bool.not_eq_true', Bool.not_eq_false]
  constructor
  · rintro ⟨-, -, h, -⟩
    exact h
  · intro h
    exact ⟨_, (), h, rfl⟩

/-- The fields of a request that do not depend on its package name are in order. -/
structure WellFormedBesidesName (request : Request) : Prop where
  times : request.createdUtc ≤ request.expiresUtc
  plan : request.frozenPlan.isMap = true
  note : ∀ note ∈ request.agentNote, (utf8 note).length ≤ 512

/-- The encoding of a request whose other fields are in order is read exactly when the
schema admits its package name. -/
theorem decode_naming_iff {request : Request} {bytes : Bytes}
    (h : WellFormedBesidesName request) (hEncode : encode request.toCbor = .ok bytes) :
    (∃ found, Request.decode bytes = .ok found) ↔
      validPackageName request.operationInput.packageName = true := by
  have hIff : ∀ found, Request.decode bytes = .ok found ↔
      found = request.normal ∧ Request.codec.toLayout.Valid request.normal ∧
        Request.codec.Accepts request.normal := by
    intro found
    have hWritten : encode (Request.codec.toCbor request) = .ok bytes := hEncode
    exact Codec.decodeWith_iff hWritten
  have hAccepts : Request.codec.Accepts request.normal :=
    Request.codec.accepts_normal request ⟨Int64.not_lt.mpr h.times, h.plan⟩
  constructor
  · intro hDecoded
    obtain ⟨found, hFound⟩ := hDecoded
    exact (Request.valid_iff.mp ((hIff found).mp hFound).2.1).1
  · intro hName
    exact ⟨request.normal, (hIff _).mpr
      ⟨rfl, Request.valid_iff.mpr ⟨hName, h.note⟩, hAccepts⟩⟩

/-! ### The preparation of a request -/

theorem length_of_isPackageName {name : String} (h : isPackageName name = true) :
    (utf8 name).length ≤ 64 := by
  unfold isPackageName at h
  cases hBytes : utf8 name with
  | nil => exact Nat.zero_le _
  | cons first rest =>
      rw [hBytes] at h
      simp only [Bool.and_eq_true, decide_eq_true_eq] at h
      exact h.1.1.2

theorem small_frozenPlan (plan : FrozenPlan) : Small 1 255 plan.toCbor := by
  have hTable : plan.toCbor = record [(1, .text plan.packageName.asStr),
      (2, .bytes plan.manifestDigest.val),
      (3, .unsigned plan.actionCount.toUInt64)] := rfl
  have hKeys : [(1 : UInt64), 2, 3].Nodup := by decide
  rw [hTable]
  show Small (0 + 1) (9 + 3 * (9 + (9 + 64))) _
  refine Small.record hKeys le_rfl (by decide) ?_
  simp only [List.forall_mem_cons]
  exact ⟨Small.text (length_of_isPackageName plan.packageName.parsed) (by decide),
    (Small.byteArr plan.manifestDigest le_rfl (by decide)).mono le_rfl (by decide),
    (Small.unsigned _).mono le_rfl (by decide), by simp⟩

section Preparation

variable [Cryptography] {deviceIdBytes : ByteArr 16} {requestId : PublicId}
  {row : RequestRow} {plan : FrozenPlan} {context : PendingRequestContext}
  {signer : BrokerSigningKey} {before : Database}

/-- What a preparation needs besides a proper package name. -/
structure Preparable (tables : Tables) (requestId : PublicId) (row : RequestRow)
    (plan : FrozenPlan) (context : PendingRequestContext) (signer : BrokerSigningKey) :
    Prop where
  times : context.createdUtc ≤ context.expiresUtc
  pinned : ∃ pinned, tables.brokerIdentity = some pinned ∧ pinned.Names signer
  package : row.packageName = plan.packageName.asStr
  requestId : ∃ bytes, requestId.bytes = .ok bytes
  deadline : context.deadlineMonoNs.toNat < 2 ^ 63

omit [Cryptography] in
/-- The columns of a checked row and identity suffice for a request with a proper
package name. -/
theorem frozenRequest_ok {identity : IdentityRow} (hChecked : row.Checked)
    (hIdentity : identity.Checked) (hId : ∃ bytes, requestId.bytes = .ok bytes)
    (hName : validPackageName row.packageName = true) :
    ∃ request, frozenRequest deviceIdBytes requestId row identity plan context =
        .ok request ∧
      request.operationInput.packageName = row.packageName ∧
      request.createdUtc = context.createdUtc ∧
      request.expiresUtc = context.expiresUtc ∧
      request.frozenPlan = plan.toCbor ∧ request.agentNote = none := by
  obtain ⟨bytes, hId⟩ := hId
  obtain ⟨hUid, -, hGeneration, -⟩ := hChecked
  obtain ⟨-, -, hEpoch, -⟩ := hIdentity
  have hNatural : ∀ {value : Int64}, 0 ≤ value → ∃ word, toU64? value.toInt =
      some word := by
    intro value hSign
    have hLow : 0 ≤ value.toInt := Int64.le_iff_toInt_le.mp hSign
    have hHigh := value.toInt_lt
    exact exists_toU64? hLow (by omega)
  obtain ⟨uid, hUid⟩ := hNatural hUid
  obtain ⟨generation, hGeneration⟩ := hNatural hGeneration
  obtain ⟨epoch, hEpoch⟩ := hNatural hEpoch
  have hInput : OperationInput.packageInstall row.packageName =
      .ok { packageName := row.packageName } := by
    rw [OperationInput.packageInstall, hName]
    rfl
  obtain ⟨request, hRequest⟩ : ∃ request,
      frozenRequest deviceIdBytes requestId row identity plan context = .ok request := by
    simp only [frozenRequest, bind_eq_ok_iff, orFault_eq_ok_iff, mapError_eq_ok_iff,
      pure_eq_ok, Except.ok.injEq]
    exact ⟨_, bytes, hId, epoch, hEpoch, generation, hGeneration, uid, hUid, _, hInput,
      rfl⟩
  refine ⟨request, hRequest, ?_⟩
  simp only [frozenRequest, hId, hEpoch, hGeneration, hUid, hInput, orFault,
    Except.mapError, ok_bind, pure_eq_ok, Except.ok.injEq] at hRequest
  rw [← hRequest]
  exact ⟨rfl, rfl, rfl, rfl, rfl⟩

/-- A request with a proper package name has a digest and canonical bytes. -/
theorem canonicalBytes_ok {request : Request}
    (hTimes : request.createdUtc ≤ request.expiresUtc)
    (hName : validPackageName request.operationInput.packageName = true)
    (hPlan : request.frozenPlan = plan.toCbor) (hNote : request.agentNote = none) :
    ∃ digest payload, request.digest = .ok digest ∧
      request.canonicalBytes = .ok payload ∧ payload.length ≤ 65536 := by
  have hMap : request.frozenPlan.isMap = true := by
    rw [hPlan]
    rfl
  obtain ⟨payload, hPayload, hLength⟩ := Request.canonicalBytes_ok hTimes hName hMap
    (hPlan ▸ small_frozenPlan plan) hNote (by decide) (by decide)
  exact ⟨_, payload,
    digestWith_wireBytes .request Request.toCbor Request.validate request payload
      hPayload, hPayload, hLength.trans (by decide)⟩

omit [Cryptography] in
theorem planningRow_eq_ok_iff {tables : Tables} :
    planningRow requestId tables = .ok row ↔
      tables.request? requestId = some row ∧ row.state = .planning := by
  simp only [planningRow, bind_eq_ok_iff, orFault_eq_ok_iff, rejectIf_eq_ok_iff,
    pure_eq_ok, Except.ok.injEq, ne_eq, not_not]
  constructor
  · intro h
    obtain ⟨found, hFound, _, hState, rfl⟩ := h
    exact ⟨hFound, hState⟩
  · intro h
    exact ⟨row, h.1, (), h.2, rfl⟩

omit [Cryptography] in
/-- The schema admits what is bound to a request, whatever was in its row before. -/
theorem constraints_bindRequest {digest : Digest} {cose frozen : Bytes}
    {deadline : Int64} (hDeadline : 0 ≤ deadline) (between : Database) :
    Constraints (between.toTables.modifyRequest requestId
      (bindRequest plan context digest cose frozen deadline)) := by
  have hBind : KeepsLifecycle (bindRequest plan context digest cose frozen deadline) :=
    bindRequest_keepsLifecycle plan context digest cose frozen deadline
  have hLength : ∀ {length : Nat} (digest : ByteArr length),
      HasLength length (some digest.val) := by
    intro length digest bytes hBytes
    exact Option.some.inj hBytes ▸ digest.property
  have hNatural : NotNegative (some deadline) := by
    intro value hValue
    exact Option.some.inj hValue ▸ hDeadline
  refine between.constraints.modifyRequest hBind.submission ?_ ?_
  · intro found hFound
    obtain ⟨hUid, hInput, hGeneration, hEpoch, -⟩ := Database.checked_of_request? hFound
    exact ⟨hUid, hInput, hGeneration, hEpoch, hNatural, hLength plan.planDigest,
      hLength digest, hLength context.nonce, hLength context.bootId,
      hLength context.policyId, hLength context.policyDigest⟩
  · intro found _ hActive
    rw [hBind.state] at hActive
    exact hActive

/-- A planned request is frozen exactly when the preparation has what it needs and the
schema admits the package name. -/
theorem prepareForDecision_succeeds_iff
    (h : OpenRequest requestId row (before.dossier requestId))
    (hPlanning : row.state = .planning) :
    Succeeds (prepareForDecision deviceIdBytes requestId plan context signer) before ↔
      Preparable before.toTables requestId row plan context signer ∧
        validPackageName row.packageName = true := by
  have hRow : before.request? requestId = some row := h.found
  constructor
  -- What a run has passed: its checks, its conversions and the constructor of the input.
  · intro hDone
    obtain ⟨result, after, hDone⟩ := hDone
    simp only [prepareForDecision, run_bind_eq_ok_iff, attempt_eq_ok_iff,
      ensureIdentity_eq_ok_iff, query_eq_ok_iff, rejectIf_eq_ok_iff,
      planningRow_eq_ok_iff, orFault_eq_ok_iff, toI64?_eq_some_iff] at hDone
    obtain ⟨_, _, ⟨hTimes, rfl⟩, _, _, ⟨hPinned, rfl⟩, found, _, ⟨⟨hFound, -⟩, rfl⟩, _,
      _, ⟨hPackage, rfl⟩, identity, _, ⟨-, rfl⟩, request, _, ⟨hRequest, rfl⟩, _, _,
      ⟨-, rfl⟩, _, _, ⟨-, rfl⟩, _, _, ⟨-, rfl⟩, _, _, ⟨-, rfl⟩, _, _, -, deadline, _,
      ⟨hDeadline, -⟩, -⟩ := hDone
    rw [hRow, Option.some.injEq] at hFound
    subst hFound
    have hHigh := deadline.toInt_lt
    simp only [frozenRequest, bind_eq_ok_iff, mapError_eq_ok_iff] at hRequest
    obtain ⟨bytes, hId, _, -, _, -, _, -, input, hInput, -⟩ := hRequest
    exact ⟨⟨Int64.not_lt.mp hTimes, hPinned, not_not.mp hPackage, ⟨bytes, hId⟩,
      by omega⟩, packageInstall_ok_iff.mp ⟨input, hInput⟩⟩
  · intro hReady
    obtain ⟨hReady, hValid⟩ := hReady
    obtain ⟨pinned, hPinned, hNames⟩ := hReady.pinned
    have hChecked := Database.checked_of_request? hRow
    have hIdentity : pinned.Checked :=
      before.constraints.identityChecks pinned hPinned
    obtain ⟨request, hRequest, hNamed, hCreated, hExpires, hPlan, hNote⟩ :
        ∃ request, frozenRequest deviceIdBytes requestId row pinned plan context =
          .ok request ∧ _ :=
      frozenRequest_ok hChecked hIdentity hReady.requestId hValid
    have hTimes : request.createdUtc ≤ request.expiresUtc := by
      rw [hCreated, hExpires]
      exact hReady.times
    obtain ⟨digest, payload, hDigest, hPayload, hLength⟩ := canonicalBytes_ok hTimes
      (hNamed ▸ hValid) hPlan hNote
    obtain ⟨cose, hCose⟩ :=
      signEnvelope_ok signer COSE_CONTENT_TYPE_REQUEST .request hLength
    obtain ⟨frozen, hFrozen, -⟩ :=
      (small_frozenPlan plan).encode_eq_ok (by decide) (by decide)
    obtain ⟨between, hAppend⟩ : ∃ between, appendTransition requestId (some .planning)
        .pending .plannerPending before = .ok ((), between) :=
      appendTransition_ok h (by simp [hPlanning])
    obtain ⟨deadline, hStored⟩ : ∃ deadline,
        toI64? context.deadlineMonoNs.toNat = some deadline := by
      have hFits := hReady.deadline
      exact exists_toI64? (by omega) (by omega)
    have hNatural : 0 ≤ deadline := by
      rw [Int64.le_iff_toInt_le, toI64?_eq_some_iff.mp hStored]
      exact Int.natCast_nonneg _
    have hConstraints : Constraints (between.toTables.modifyRequest requestId
        (bindRequest plan context digest cose frozen deadline)) :=
      constraints_bindRequest hNatural between
    refine ⟨cose, ⟨_, hConstraints⟩, ?_⟩
    -- The run, statement by statement.
    simp only [prepareForDecision, run_bind_eq_ok_iff, attempt_eq_ok_iff,
      ensureIdentity_eq_ok_iff, query_eq_ok_iff, rejectIf_eq_ok_iff,
      planningRow_eq_ok_iff, orFault_eq_ok_iff, mapError_eq_ok_iff,
      updateRequest_eq_ok_iff, run_pure_eq_ok_iff, identityRow]
    exact ⟨(), before, ⟨Int64.not_lt.mpr hReady.times, rfl⟩, (), before,
      ⟨⟨pinned, hPinned, hNames⟩, rfl⟩, row, before, ⟨⟨hRow, hPlanning⟩, rfl⟩, (), before,
      ⟨not_not.mpr hReady.package, rfl⟩, pinned, before, ⟨hPinned, rfl⟩, request, before,
      ⟨hRequest, rfl⟩, digest, before, ⟨hDigest, rfl⟩, payload, before,
      ⟨hPayload, rfl⟩, cose, before, ⟨hCose, rfl⟩, frozen, before,
      ⟨hPlan ▸ hFrozen, rfl⟩, (), between, hAppend, deadline, between,
      ⟨hStored, rfl⟩, (), _, rfl, rfl, rfl⟩

end Preparation

/-! ### Every name -/

theorem exists_parse_iff {name : String} :
    (∃ parsed, PackageName.parse name = .ok parsed) ↔ isPackageName name = true := by
  unfold PackageName.parse
  by_cases hName : isPackageName name = true
  · rw [dif_pos hName]
    exact ⟨fun _ => hName, fun _ => ⟨_, rfl⟩⟩
  · rw [dif_neg hName]
    refine ⟨?_, fun h => absurd h hName⟩
    intro h
    obtain ⟨parsed, hParsed⟩ := h
    cases hParsed

/-- The command and the intake admit the same names.  Such a name passes the schema, a
request that names it is read, the helper admits it and every request for it that is
being planned can be frozen, each exactly when it does not begin with a digit. -/
theorem package_grammars_iff [Cryptography] (name : String) :
    (Cli.isBinaryPackageName name = true ↔
      ∃ parsed, PackageName.parse name = .ok parsed) ∧
    (Cli.isBinaryPackageName name = true →
      ((∃ input, OperationInput.packageInstall name = .ok input) ↔
        beginsWithDigit name = false) ∧
      (∀ request bytes, WellFormedBesidesName request →
        request.operationInput.packageName = name →
        encode request.toCbor = .ok bytes →
        ((∃ found, Request.decode bytes = .ok found) ↔ beginsWithDigit name = false)) ∧
      (Helper.validPackageName (utf8 name) = true ↔ beginsWithDigit name = false)) ∧
    ∀ calls requestId row plan context signer,
      let store := run BrokerStore.step BrokerStore.empty calls
      store.database.request? requestId = some row → row.state = .planning →
      row.packageName = name →
      (Succeeds (prepareForDecision store.deviceIdBytes requestId plan context signer)
        store.database ↔
          Preparable store.database.toTables requestId row plan context signer ∧
            beginsWithDigit name = false) := by
  have hSchema : isPackageName name = true →
      (validPackageName name = true ↔ beginsWithDigit name = false) := by
    intro hName
    rw [validPackageName_of_isPackageName hName, Bool.not_eq_true']
  refine ⟨?_, ?_, ?_⟩
  · rw [exists_parse_iff, isBinaryPackageName_eq]
  · intro hAdmitted
    rw [isBinaryPackageName_eq] at hAdmitted
    refine ⟨packageInstall_ok_iff.trans (hSchema hAdmitted), ?_, ?_⟩
    · intro request bytes hRequest hNamed hEncode
      rw [decode_naming_iff hRequest hEncode, hNamed]
      exact hSchema hAdmitted
    · rw [validPackageName_utf8]
      exact hSchema hAdmitted
  · intro calls requestId row plan context signer store hRow hPlanning hNamed
    -- The name in the row is the one that was submitted.
    obtain ⟨submitted, -, -, hSubmitted⟩ := submitted_of_row hRow
    have hName : isPackageName row.packageName = true :=
      hSubmitted ▸ submitted.packageName.parsed
    have hOpen : row.state.isTerminal = false := by
      rw [hPlanning]
      rfl
    rw [prepareForDecision_succeeds_iff (OpenRequest.of_run calls hRow hOpen) hPlanning,
      ← hNamed, validPackageName_of_isPackageName hName, Bool.not_eq_true']

/-- What the command parses passes the intake of the broker. -/
theorem parsePackageInstall_intake {arguments : List String}
    {request : Cli.PackageInstallRequest}
    (h : Cli.parsePackageInstall arguments = .ok request) :
    (∃ name, PackageName.parse request.packageName = .ok name) ∧
      ∃ key, OperationKey.parse request.operationKey = .ok key := by
  obtain ⟨-, hName, hKey, -⟩ := Cli.parsePackageInstall_eq_ok_iff.mp h
  refine ⟨exists_parse_iff.mpr (isBinaryPackageName_eq _ ▸ hName), ?_⟩
  have hIntake : isOperationKey request.operationKey = true := by
    have hByte : ∀ byte : UInt8, (Cli.isAsciiAlphanumeric byte ||
        (byte == 0x2d || byte == 0x5f)) = isBase64url byte := by
      intro byte
      unfold Cli.isAsciiAlphanumeric isBase64url isAsciiUppercase
      ac_rfl
    unfold Cli.isOperationKey at hKey
    simp only [hByte] at hKey
    exact hKey
  rw [OperationKey.parse, dif_pos hIntake]
  exact ⟨_, rfl⟩

/-- A request with this package name; the other fields are those of a sample. -/
def requestNaming (name : String) : Request where
  requestId := ByteArr.fill 16 1
  deviceId := ByteArr.fill 16 2
  brokerEpoch := 0
  generation := 0
  createdUtc := 10
  expiresUtc := 100
  bootId := ByteArr.fill 16 3
  deadlineMonoNs := 1000
  nonce := ByteArr.fill 32 4
  requesterUid := 1000
  operation := .packageInstall
  operationInput := { packageName := name }
  policyId := ByteArr.fill 16 5
  policyDigest := ByteArr.fill 32 6
  planDigest := ByteArr.fill 32 7
  frozenPlan := .map []
  agentNote := none

/-- The package of the sample request passes from the command to the helper. -/
theorem package_grammars_sample :
    let _ : Cryptography := keyedHashCryptography
    let store := run BrokerStore.step BrokerStore.empty unpreparedRun
    (∃ parsed, PackageName.parse "jq" = .ok parsed) ∧
      (∃ input, OperationInput.packageInstall "jq" = .ok input) ∧
      (∃ bytes found, encode (requestNaming "jq").toCbor = .ok bytes ∧
        Request.decode bytes = .ok found) ∧
      Helper.validPackageName (utf8 "jq") = true ∧
      Succeeds (prepareForDecision store.deviceIdBytes sampleRequest.requestId
        samplePlan samplePendingContext sampleSigner) store.database := by
  intro _ store
  have hAdmitted : Cli.isBinaryPackageName "jq" = true := by decide +kernel
  have hFirst : beginsWithDigit "jq" = false := by decide +kernel
  have hGrammars := package_grammars_iff "jq"
  obtain ⟨hParse, hNames, hPrepare⟩ := hGrammars
  obtain ⟨hInput, hDecode, hHelper⟩ := hNames hAdmitted
  have hEncode : (encode (requestNaming "jq").toCbor).map (fun _ => ()) = .ok () := by
    decide +kernel
  obtain ⟨bytes, hBytes, -⟩ := map_eq_ok_iff.mp hEncode
  have hWellFormed : WellFormedBesidesName (requestNaming "jq") :=
    ⟨by decide, rfl, by simp [requestNaming]⟩
  obtain ⟨found, hFound⟩ := (hDecode _ bytes hWellFormed rfl hBytes).mpr hFirst
  refine ⟨hParse.mp hAdmitted, hInput.mpr hFirst, ⟨bytes, found, hBytes, hFound⟩,
    hHelper.mpr hFirst, ?_⟩
  have hColumns : (store.database.request? sampleRequest.requestId).map
        (fun row => (row.state, row.packageName)) = some (.planning, "jq") ∧
      store.database.brokerIdentity.map
        (fun pinned => decide (pinned.Names sampleSigner)) = some true ∧
      (sampleRequest.requestId.bytes).map (fun _ => ()) = .ok () := by
    decide +kernel
  have hFreeze := hPrepare unpreparedRun sampleRequest.requestId
  have hStore : run BrokerStore.step BrokerStore.empty unpreparedRun = store := rfl
  rw [hStore] at hFreeze
  clear_value store
  obtain ⟨hRow, hIdentity, hId⟩ := hColumns
  obtain ⟨row, hRow, hPair⟩ := Option.map_eq_some_iff.mp hRow
  obtain ⟨hPlanning, hPackage⟩ := Prod.mk.inj hPair
  obtain ⟨pinned, hPinned, hSigner⟩ := Option.map_eq_some_iff.mp hIdentity
  obtain ⟨idBytes, hId, -⟩ := map_eq_ok_iff.mp hId
  refine (hFreeze row samplePlan samplePendingContext sampleSigner hRow hPlanning
    hPackage).mpr ⟨?_, hFirst⟩
  exact {
    times := by decide
    pinned := ⟨pinned, hPinned, of_decide_eq_true hSigner⟩
    package := hPackage
    requestId := ⟨idBytes, hId⟩
    deadline := by decide }

/-- A package whose name begins with a digit, as Debian has them. -/
def sevenZip : PackageName :=
  ⟨"7zip", by decide +kernel⟩

def sevenZipPlan : FrozenPlan :=
  { samplePlan with packageName := sevenZip }

/-- The sample request, for that package. -/
def sevenZipRun : List Call :=
  [.initializeIdentity sampleSigner (some (ByteArr.fill 16 9)),
    .submit { sampleRequest with packageName := sevenZip } allowAll]

/-- The command, the intake and the policy admit the package; the schema and the helper
reject its name, and the request for it can not be frozen. -/
theorem leading_digit_blocks_preparation :
    let _ : Cryptography := keyedHashCryptography
    let store := run BrokerStore.step BrokerStore.empty sevenZipRun
    Cli.isBinaryPackageName "7zip" = true ∧
      PackageName.parse "7zip" = .ok sevenZip ∧
      OperationInput.packageInstall "7zip" = .error (.invalidField 13) ∧
      (encode (requestNaming "7zip").toCbor).toOption.map
        (fun bytes => (Request.decode bytes).map fun _ => ()) =
          some (.error (.invalidField 13)) ∧
      Helper.validPackageName (utf8 "7zip") = false ∧
      requestState sampleRequest.requestId store.database.toTables =
        some .planning ∧
      (prepareForDecision store.deviceIdBytes sampleRequest.requestId sevenZipPlan
        samplePendingContext sampleSigner store.database).map (fun _ => ()) =
          .error .corruptState := by
  intro _ store
  decide +kernel

end Broker
end RootPermit
