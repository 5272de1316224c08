import RootPermit.Protocol.SchemaFields

/-!
# The wire round trip of the message schemas

Every schema is given its layout, from which `decode` and `canonical_bytes` are
shown to be inverse to each other up to the order of map entries inside
free-form fields.

* `Codec` — a layout together with the checks made around its reader;
* `Codec.canonicalBytes_of_decode`, `Codec.decode_of_canonicalBytes` — the two
  directions for the schemas that leave validation to the caller, and
  `Codec.validated_*` for those that validate what they read.
-/

namespace RootPermit
namespace Protocol

open Foundation

/-! ### Codecs -/

/-- A layout with the checks of `from_cbor` that follow the reads and the check
of `validate`. -/
structure Codec (T : Type) extends Layout T where
  fromCbor : CborValue → Except SchemaError T
  Accepts : T → Prop
  check : T → Except SchemaError Unit
  fromCbor_iff : ∀ value message, fromCbor value = .ok message ↔
    readMessage (specs.map FieldSpec.key) read value = .ok message ∧
      Accepts message
  accepts_normal : ∀ message, Accepts message → Accepts (normal message)
  check_normal : ∀ message, check message = .ok () →
    check (normal message) = .ok ()

/-- Bytes and messages correspond: what is decoded is written back as the same
bytes, and what is written is decoded as the message in normal form. -/
structure RoundTrips {T : Type} (canonicalBytes : T → Except SchemaError Bytes)
    (decode : Bytes → Except SchemaError T) (normal : T → T) : Prop where
  canonicalBytes_of_decode : ∀ bytes message,
    decode bytes = .ok message → canonicalBytes message = .ok bytes
  decode_of_canonicalBytes : ∀ message bytes,
    canonicalBytes message = .ok bytes → decode bytes = .ok (normal message)

/-- The digest of a message hashes the bytes that travel on the wire. -/
def DigestsWireBytes [Cryptography] {T : Type} (domain : Domain)
    (canonicalBytes : T → Except SchemaError Bytes)
    (digest : T → Except SchemaError Digest) : Prop :=
  ∀ message bytes, canonicalBytes message = .ok bytes →
    digest message = .ok (sha256 (domain.label ++ bytes))

namespace Codec

variable {T : Type} (codec : Codec T)

def toCbor (message : T) : CborValue :=
  record (codec.entries message)

def validate : T → Except SchemaError Unit :=
  validateWith codec.toCbor codec.fromCbor codec.check

def canonicalBytes : T → Except SchemaError Bytes :=
  canonicalBytesWith codec.toCbor codec.validate

variable {codec}

theorem fromCbor_toCbor_iff {message found : T} :
    codec.fromCbor (codec.toCbor message) = .ok found ↔
      found = message ∧ codec.toLayout.Valid message ∧ codec.Accepts message := by
  have hRead : readMessage codec.known codec.read
      (record (codec.entries message)) = .ok found ↔
      found = message ∧ codec.toLayout.Valid message :=
    Layout.readMessage_record
  rw [codec.fromCbor_iff]
  change readMessage codec.known codec.read (record (codec.entries message)) =
    .ok found ∧ codec.Accepts found ↔ _
  rw [hRead, and_assoc]
  constructor
  · intro h
    obtain ⟨rfl, hValid, hAccepts⟩ := h
    exact ⟨rfl, hValid, hAccepts⟩
  · intro h
    obtain ⟨rfl, hValid, hAccepts⟩ := h
    exact ⟨rfl, hValid, hAccepts⟩

theorem validate_eq_ok_iff {message : T} :
    codec.validate message = .ok () ↔
      codec.toLayout.Valid message ∧ codec.Accepts message ∧
        codec.check message = .ok () := by
  simp only [validate, validateWith, bind_eq_ok_iff, fromCbor_toCbor_iff]
  constructor
  · intro h
    obtain ⟨_, ⟨rfl, hValid, hAccepts⟩, hCheck⟩ := h
    exact ⟨hValid, hAccepts, hCheck⟩
  · intro h
    obtain ⟨hValid, hAccepts, hCheck⟩ := h
    exact ⟨message, ⟨rfl, hValid, hAccepts⟩, hCheck⟩

theorem canonicalBytes_eq_ok_iff {message : T} {bytes : Bytes} :
    codec.canonicalBytes message = .ok bytes ↔
      codec.validate message = .ok () ∧
        encode (codec.toCbor message) = .ok bytes := by
  simp only [canonicalBytes, canonicalBytesWith, bind_eq_ok_iff,
    mapError_eq_ok_iff]
  constructor
  · intro h
    obtain ⟨_, hValid, hEncode⟩ := h
    exact ⟨hValid, hEncode⟩
  · intro h
    obtain ⟨hValid, hEncode⟩ := h
    exact ⟨(), hValid, hEncode⟩

theorem decodeWith_eq_ok {message : T} {bytes : Bytes}
    (h : decodeWith codec.fromCbor bytes = .ok message) :
    codec.toLayout.Valid message ∧ codec.Accepts message ∧
      encode (codec.toCbor message) = .ok bytes := by
  simp only [decodeWith, bind_eq_ok_iff, mapError_eq_ok_iff,
    codec.fromCbor_iff] at h
  obtain ⟨value, hDecode, hRead, hAccepts⟩ := h
  have hAdmitted : Admitted value := ⟨0, (decode_eq_ok_iff.mp hDecode).2.1⟩
  have hSound : value = normalize (codec.toCbor message) ∧
      codec.toLayout.Valid message :=
    Layout.readMessage_sound hAdmitted hRead
  obtain ⟨rfl, hValid⟩ := hSound
  exact ⟨hValid, hAccepts, encode_eq_ok_iff_decode.mpr hDecode⟩

/-- What was encoded is decoded exactly when its normal form passes the reader. -/
theorem decodeWith_iff {message found : T} {bytes : Bytes}
    (hEncode : encode (codec.toCbor message) = .ok bytes) :
    decodeWith codec.fromCbor bytes = .ok found ↔
      found = codec.normal message ∧
        codec.toLayout.Valid (codec.normal message) ∧
        codec.Accepts (codec.normal message) := by
  have hDecode : decode bytes = .ok (normalize (codec.toCbor message)) :=
    encode_eq_ok_iff_decode.mp hEncode
  have hRead : readMessage codec.known codec.read
      (normalize (codec.toCbor message)) = .ok found ↔
      found = codec.normal message ∧ codec.toLayout.Valid (codec.normal message) :=
    Layout.readMessage_normalize_iff
  rw [decodeWith, hDecode]
  show codec.fromCbor (normalize (codec.toCbor message)) = .ok found ↔ _
  rw [codec.fromCbor_iff]
  change readMessage codec.known codec.read (normalize (codec.toCbor message)) =
    .ok found ∧ codec.Accepts found ↔ _
  rw [hRead, and_assoc]
  refine and_congr_right fun hFound => ?_
  rw [hFound]

theorem decodeWith_normal {message : T} {bytes : Bytes}
    (hValid : codec.toLayout.Valid message) (hAccepts : codec.Accepts message)
    (hEncode : encode (codec.toCbor message) = .ok bytes) :
    decodeWith codec.fromCbor bytes = .ok (codec.normal message) :=
  (decodeWith_iff hEncode).mpr ⟨rfl, Layout.valid_normal_of_valid hValid,
    codec.accepts_normal message hAccepts⟩

/-- A schema whose `decode` does not validate: its reader checks everything. -/
theorem roundTrips_decodeWith
    (hCheck : ∀ message, codec.Accepts message → codec.check message = .ok ()) :
    RoundTrips codec.canonicalBytes (decodeWith codec.fromCbor)
      codec.normal where
  canonicalBytes_of_decode := by
    intro bytes message h
    obtain ⟨hValid, hAccepts, hEncode⟩ := decodeWith_eq_ok h
    exact canonicalBytes_eq_ok_iff.mpr
      ⟨validate_eq_ok_iff.mpr ⟨hValid, hAccepts, hCheck message hAccepts⟩,
        hEncode⟩
  decode_of_canonicalBytes := by
    intro message bytes h
    obtain ⟨hValidate, hEncode⟩ := canonicalBytes_eq_ok_iff.mp h
    obtain ⟨hValid, hAccepts, -⟩ := validate_eq_ok_iff.mp hValidate
    exact decodeWith_normal hValid hAccepts hEncode

theorem roundTrips_decodeValidated :
    RoundTrips codec.canonicalBytes
      (decodeValidated codec.fromCbor codec.validate) codec.normal where
  canonicalBytes_of_decode := by
    intro bytes message h
    simp only [decodeValidated, bind_eq_ok_iff, pure_eq_ok, Except.ok.injEq] at h
    obtain ⟨_, hDecode, _, hValidate, rfl⟩ := h
    obtain ⟨-, -, hEncode⟩ := decodeWith_eq_ok hDecode
    exact canonicalBytes_eq_ok_iff.mpr ⟨hValidate, hEncode⟩
  decode_of_canonicalBytes := by
    intro message bytes h
    obtain ⟨hValidate, hEncode⟩ := canonicalBytes_eq_ok_iff.mp h
    obtain ⟨hValid, hAccepts, hCheck⟩ := validate_eq_ok_iff.mp hValidate
    have hNormal : codec.validate (codec.normal message) = .ok () :=
      validate_eq_ok_iff.mpr ⟨Layout.valid_normal_of_valid hValid,
        codec.accepts_normal message hAccepts, codec.check_normal message hCheck⟩
    rw [decodeValidated, decodeWith_normal hValid hAccepts hEncode, ok_bind,
      hNormal]
    rfl

end Codec

/-- The codec of a schema whose `from_cbor` only reads. -/
def Layout.codec {T : Type} (layout : Layout T)
    (check : T → Except SchemaError Unit)
    (hNormal : ∀ message, check message = .ok () →
      check (layout.normal message) = .ok ()) : Codec T where
  toLayout := layout
  fromCbor := readMessage layout.known layout.read
  Accepts _ := True
  check := check
  fromCbor_iff _ _ := (and_iff_left trivial).symm
  accepts_normal _ h := h
  check_normal := hNormal

theorem digestWith_wireBytes [Cryptography] {T : Type} (domain : Domain)
    (toCbor : T → CborValue) (validate : T → Except SchemaError Unit) :
    DigestsWireBytes domain (canonicalBytesWith toCbor validate)
      (digestWith domain toCbor validate) := by
  intro message bytes h
  simp only [canonicalBytesWith, bind_eq_ok_iff, mapError_eq_ok_iff] at h
  obtain ⟨_, hValidate, hEncode⟩ := h
  rw [digestWith, hValidate, ok_bind, digestCbor, digestPreimage, hEncode]
  rfl

/-! ### Nested messages -/

@[simp] theorem normalize_signed (value : Int64) :
    normalize (signed value) = signed value := by
  unfold signed
  split <;> rfl

@[simp] theorem isMap_normalize (value : CborValue) :
    (normalize value).isMap = value.isMap := by
  cases value <;> rfl

/-- A record whose keys are listed in increasing order and whose values are in
normal form is in normal form. -/
theorem normalize_record_self {table : List (UInt64 × CborValue)}
    (hKeys : (table.map Prod.fst).Pairwise fun first second =>
      shortlex (referenceEncoding (.unsigned first))
        (referenceEncoding (.unsigned second)) = .lt)
    (hValues : normalizeTable table = table) :
    normalize (record table) = record table := by
  have hOrder : KeysIncrease writtenKey (recordEntries table) := by
    rw [List.pairwise_map] at hKeys
    refine List.pairwise_map.mpr (hKeys.imp ?_)
    intro first second hLt
    exact shortlex_eq_lt_iff.mp hLt
  have hSame : (recordEntries table).map normalizeEntry =
      recordEntries (normalizeTable table) := by
    rw [recordEntries, recordEntries, normalizeTable, List.map_map, List.map_map]
    rfl
  change normalize (.map (recordEntries table)) = _
  rw [normalize_map, hOrder.sortByKey_eq, hSame, hValues]
  rfl

namespace OperationInput

def specs : List (FieldSpec OperationInput) :=
  [.required 1 (.text 1 255) packageName]

def layout : Layout OperationInput where
  entries := entries
  read := read
  specs := specs
  normal input := input
  keys_nodup := by decide
  yields_iff fields input := by
    simp only [read, requiredText, yields_requiredAs_bind, yields_pure, specs,
      List.forall_mem_singleton]
    constructor
    · intro h
      obtain ⟨_, hName, rfl⟩ := h
      exact hName
    · intro h
      exact ⟨_, h, rfl⟩
  entries_perm _ := List.Perm.refl _
  entries_normal _ := rfl
  valid_normal _ _ _ h := h

theorem normalize_toCbor (input : OperationInput) :
    normalize input.toCbor = input.toCbor :=
  normalize_record_self (List.pairwise_singleton _ _) rfl

theorem fromCbor_eq_ok_iff {value : CborValue} {input : OperationInput} :
    fromCbor value = .ok input ↔
      readMessage layout.known layout.read value = .ok input ∧
        validPackageName input.packageName = true := by
  simp only [fromCbor, bind_eq_ok_iff, rejectIf_eq_ok_iff, pure_eq_ok,
    Except.ok.injEq, Bool.not_eq_true', Bool.not_eq_false, exists_const]
  constructor
  · intro h
    obtain ⟨_, hRead, hName, rfl⟩ := h
    exact ⟨hRead, hName⟩
  · intro h
    exact ⟨input, h.1, h.2, rfl⟩

end OperationInput

def Conversion.operationInput : Conversion OperationInput where
  convert := OperationInput.fromCbor
  write := OperationInput.toCbor
  Valid input := OperationInput.layout.Valid input ∧
    validPackageName input.packageName = true
  complete input h := OperationInput.fromCbor_eq_ok_iff.mpr
    ⟨Layout.readMessage_record.mpr ⟨rfl, h.1⟩, h.2⟩
  valid input found h := by
    obtain ⟨hRead, hName⟩ := OperationInput.fromCbor_eq_ok_iff.mp h
    obtain ⟨rfl, hValid⟩ := Layout.readMessage_record.mp hRead
    exact ⟨hValid, hName⟩
  sound value input hAdmitted h := by
    obtain ⟨hRead, hName⟩ := OperationInput.fromCbor_eq_ok_iff.mp h
    obtain ⟨rfl, hValid⟩ := Layout.readMessage_sound hAdmitted hRead
    exact ⟨input.normalize_toCbor, hValid, hName⟩

namespace ApprovalContext

def specs : List (FieldSpec ApprovalContext) :=
  [.required 1 .version fun _ => (),
    .required 2 (.identifier "request ID" 16 2) requestId,
    .required 3 (.identifier "device ID" 16 3) deviceId,
    .required 4 (.unsigned 4) brokerEpoch,
    .required 5 (.digest 5) requestDigest,
    .required 6 (.unsigned 6) generation,
    .required 7 (.identifier "approval nonce" 32 7) nonce,
    .required 8 (.nonEmptyText 8 253) rpId,
    .required 9 (.nonEmptyText 9 255) origin,
    .required 10 .decision decision,
    .required 11 (.signed 11) expiresUtc]

theorem yields_iff (fields : Fields) (context : ApprovalContext) :
    Yields read fields context ↔ ∀ spec ∈ specs, spec.Reads context fields := by
  simp (disch := decide) only [read, version, identifier, requiredUnsigned,
    digestField, requiredNonEmptyText, requiredSigned, yields_requiredAs_bind,
    yields_pure, fieldIs_erase, specs, List.forall_mem_cons]
  constructor
  · intro h
    obtain ⟨_, h1, _, h2, _, h3, _, h4, _, h5, _, h6, _, h7, _, h8, _, h9, _,
      h10, _, h11, rfl⟩ := h
    exact ⟨h1, h2, h3, h4, h5, h6, h7, h8, h9, h10, h11, by simp⟩
  · intro h
    obtain ⟨h1, h2, h3, h4, h5, h6, h7, h8, h9, h10, h11, -⟩ := h
    exact ⟨_, h1, _, h2, _, h3, _, h4, _, h5, _, h6, _, h7, _, h8, _, h9, _,
      h10, _, h11, rfl⟩

theorem normalizeTable_entries (context : ApprovalContext) :
    normalizeTable context.entries = context.entries := by
  simp [normalizeTable, entries, normalize]

def layout : Layout ApprovalContext where
  entries := entries
  read := read
  specs := specs
  normal context := context
  keys_nodup := by decide
  yields_iff := yields_iff
  entries_perm _ := List.Perm.refl _
  entries_normal context := (normalizeTable_entries context).symm
  valid_normal _ _ _ h := h

theorem roundTrips : RoundTrips canonicalBytes decode fun context => context :=
  (layout.codec noFurtherCheck fun _ h => h).roundTrips_decodeWith
    fun _ _ => rfl

theorem normalize_toCbor (context : ApprovalContext) :
    normalize context.toCbor = context.toCbor := by
  have hKeys : known.Pairwise fun first second =>
      shortlex (referenceEncoding (.unsigned first))
        (referenceEncoding (.unsigned second)) = .lt := by
    decide +kernel
  exact normalize_record_self hKeys (normalizeTable_entries context)

theorem fromCbor_toCbor_iff {context found : ApprovalContext} :
    fromCbor context.toCbor = .ok found ↔
      found = context ∧ layout.Valid context := by
  change readMessage layout.known layout.read
    (record (layout.entries context)) = _ ↔ _
  exact Layout.readMessage_record

theorem fromCbor_sound {value : CborValue} {context : ApprovalContext}
    (hAdmitted : Admitted value) (h : fromCbor value = .ok context) :
    value = context.toCbor ∧ layout.Valid context := by
  change readMessage layout.known layout.read value = _ at h
  obtain ⟨hValue, hValid⟩ := Layout.readMessage_sound hAdmitted h
  exact ⟨hValue.trans context.normalize_toCbor, hValid⟩

end ApprovalContext

def Conversion.approvalContext : Conversion ApprovalContext where
  convert := ApprovalContext.fromCbor
  write := ApprovalContext.toCbor
  Valid := ApprovalContext.layout.Valid
  complete _ h := ApprovalContext.fromCbor_toCbor_iff.mpr ⟨rfl, h⟩
  valid _ _ h := (ApprovalContext.fromCbor_toCbor_iff.mp h).2
  sound _ _ hAdmitted h := ApprovalContext.fromCbor_sound hAdmitted h

/-! ### The other schemas -/

namespace Request

def specs : List (FieldSpec Request) :=
  [.required 1 .version fun _ => (),
    .required 2 (.identifier "request ID" 16 2) requestId,
    .required 3 (.identifier "device ID" 16 3) deviceId,
    .required 4 (.unsigned 4) brokerEpoch,
    .required 5 (.unsigned 5) generation,
    .required 6 (.signed 6) createdUtc,
    .required 7 (.signed 7) expiresUtc,
    .required 8 (.identifier "boot ID" 16 8) bootId,
    .required 9 (.unsigned 9) deadlineMonoNs,
    .required 10 (.identifier "approval nonce" 32 10) nonce,
    .required 11 (.unsigned 11) requesterUid,
    .required 12 .operation operation,
    .required 13 .operationInput operationInput,
    .required 14 (.identifier "policy ID" 16 14) policyId,
    .required 15 (.digest 15) policyDigest,
    .required 16 (.digest 16) planDigest,
    .required 17 .any frozenPlan,
    .optional 18 (.text 18 512) agentNote]

/-- The frozen plan is the only free-form field. -/
def normal (request : Request) : Request :=
  { request with frozenPlan := normalize request.frozenPlan }

theorem yields_iff (fields : Fields) (request : Request) :
    Yields read fields request ↔ ∀ spec ∈ specs, spec.Reads request fields := by
  simp (disch := decide) only [read, version, identifier, requiredUnsigned,
    digestField, requiredSigned, required_eq_requiredAs, optionalText,
    requiredText, yields_requiredAs_bind, yields_optionalField_bind,
    yields_pure, fieldIs_erase, optionalFieldIs_erase, specs,
    List.forall_mem_cons]
  constructor
  · intro h
    obtain ⟨_, h1, _, h2, _, h3, _, h4, _, h5, _, h6, _, h7, _, h8, _, h9, _,
      h10, _, h11, _, h12, _, h13, _, h14, _, h15, _, h16, _, h17, _, h18, rfl⟩ := h
    exact ⟨h1, h2, h3, h4, h5, h6, h7, h8, h9, h10, h11, h12, h13, h14, h15,
      h16, h17, h18, by simp⟩
  · intro h
    obtain ⟨h1, h2, h3, h4, h5, h6, h7, h8, h9, h10, h11, h12, h13, h14, h15,
      h16, h17, h18, -⟩ := h
    exact ⟨_, h1, _, h2, _, h3, _, h4, _, h5, _, h6, _, h7, _, h8, _, h9, _,
      h10, _, h11, _, h12, _, h13, _, h14, _, h15, _, h16, _, h17, _, h18, rfl⟩

theorem entries_perm (request : Request) :
    request.entries.Perm (writtenEntries specs request) := by
  obtain ⟨_, _, _, _, _, _, _, _, _, _, _, _, _, _, _, _, note⟩ := request
  cases note with
  | none => exact List.Perm.refl _
  | some note => exact List.Perm.refl _

theorem entries_normal (request : Request) :
    request.normal.entries = normalizeTable request.entries := by
  cases hNote : request.agentNote <;>
    simp [normalizeTable, entries, normal, normalize, optionalEntry, hNote,
      OperationInput.normalize_toCbor]

def codec : Codec Request where
  entries := entries
  read := read
  specs := specs
  normal := normal
  keys_nodup := by decide
  yields_iff := yields_iff
  entries_perm := entries_perm
  entries_normal := entries_normal
  valid_normal request := by
    simp only [specs, List.forall_mem_cons]
    exact ⟨id, id, id, id, id, id, id, id, id, id, id, id, id, id, id, id, id,
      id, by simp⟩
  fromCbor := fromCbor
  Accepts request :=
    ¬ request.expiresUtc < request.createdUtc ∧ request.frozenPlan.isMap = true
  check := checkFrozenPlan
  fromCbor_iff value request := by
    simp only [fromCbor, bind_eq_ok_iff, rejectIf_eq_ok_iff, pure_eq_ok,
      Except.ok.injEq, Bool.not_eq_true', Bool.not_eq_false, exists_const]
    constructor
    · intro h
      obtain ⟨_, hRead, hTimes, hPlan, rfl⟩ := h
      exact ⟨hRead, hTimes, hPlan⟩
    · intro h
      obtain ⟨hRead, hTimes, hPlan⟩ := h
      exact ⟨request, hRead, hTimes, hPlan, rfl⟩
  accepts_normal request h := by
    exact ⟨h.1, by rw [normal, isMap_normalize]; exact h.2⟩
  check_normal request h := by
    simpa only [checkFrozenPlan, normal, isMap_normalize] using h

theorem roundTrips : RoundTrips canonicalBytes decode normal :=
  codec.roundTrips_decodeWith fun request h => by
    simp [codec, checkFrozenPlan, h.2]

end Request

namespace DecisionSubmission

def specs : List (FieldSpec DecisionSubmission) :=
  [.required 1 .version fun _ => (),
    .required 2 .approvalContext approvalContext,
    .required 3 (.boundedBytes 3 1 1024) credentialId,
    .required 4 (.boundedBytes 4 1 512) authenticatorData,
    .required 5 (.boundedBytes 5 1 4096) clientDataJson,
    .required 6 (.boundedBytes 6 1 512) signature,
    .optional 7 (.boundedBytes 7 0 256) userHandle]

theorem yields_iff (fields : Fields) (submission : DecisionSubmission) :
    Yields read fields submission ↔
      ∀ spec ∈ specs, spec.Reads submission fields := by
  simp (disch := decide) only [read, version, requiredBoundedBytes,
    optionalBoundedBytes, yields_requiredAs_bind, yields_optionalField_bind,
    yields_pure, fieldIs_erase, optionalFieldIs_erase, specs,
    List.forall_mem_cons]
  constructor
  · intro h
    obtain ⟨_, h1, _, h2, _, h3, _, h4, _, h5, _, h6, _, h7, rfl⟩ := h
    exact ⟨h1, h2, h3, h4, h5, h6, h7, by simp⟩
  · intro h
    obtain ⟨h1, h2, h3, h4, h5, h6, h7, -⟩ := h
    exact ⟨_, h1, _, h2, _, h3, _, h4, _, h5, _, h6, _, h7, rfl⟩

theorem entries_perm (submission : DecisionSubmission) :
    submission.entries.Perm (writtenEntries specs submission) := by
  obtain ⟨_, _, _, _, _, handle⟩ := submission
  cases handle with
  | none => exact List.Perm.refl _
  | some handle => exact List.Perm.refl _

theorem normalizeTable_entries (submission : DecisionSubmission) :
    normalizeTable submission.entries = submission.entries := by
  cases hHandle : submission.userHandle <;>
    simp [normalizeTable, entries, normalize, optionalEntry, hHandle,
      ApprovalContext.normalize_toCbor]

def layout : Layout DecisionSubmission where
  entries := entries
  read := read
  specs := specs
  normal submission := submission
  keys_nodup := by decide
  yields_iff := yields_iff
  entries_perm := entries_perm
  entries_normal submission := (normalizeTable_entries submission).symm
  valid_normal _ _ _ h := h

theorem roundTrips :
    RoundTrips canonicalBytes decode fun submission => submission :=
  (layout.codec noFurtherCheck fun _ h => h).roundTrips_decodeWith
    fun _ _ => rfl

end DecisionSubmission

namespace PlanManifest

def specs : List (FieldSpec PlanManifest) :=
  [.required 1 .version fun _ => (),
    .required 2 (.digest 2) planDigest,
    .required 3 (.array 3) inputs,
    .required 4 (.map 4) actionGraph,
    .required 5 (.digest 5) policyDigest,
    .required 6 (.signed 6) createdUtc,
    .required 7 (.map 7) toolchain,
    .required 8 (.map 8) prestateObservation]

def normal (manifest : PlanManifest) : PlanManifest :=
  { manifest with
    inputs := manifest.inputs.map normalize
    actionGraph := normalize manifest.actionGraph
    toolchain := normalize manifest.toolchain
    prestateObservation := normalize manifest.prestateObservation }

theorem yields_iff (fields : Fields) (manifest : PlanManifest) :
    Yields read fields manifest ↔ ∀ spec ∈ specs, spec.Reads manifest fields := by
  simp (disch := decide) only [read, version, digestField, requiredArray,
    requiredMap, requiredSigned, yields_requiredAs_bind, yields_pure,
    fieldIs_erase, specs, List.forall_mem_cons]
  constructor
  · intro h
    obtain ⟨_, h1, _, h2, _, h3, _, h4, _, h5, _, h6, _, h7, _, h8, rfl⟩ := h
    exact ⟨h1, h2, h3, h4, h5, h6, h7, h8, by simp⟩
  · intro h
    obtain ⟨h1, h2, h3, h4, h5, h6, h7, h8, -⟩ := h
    exact ⟨_, h1, _, h2, _, h3, _, h4, _, h5, _, h6, _, h7, _, h8, rfl⟩

def layout : Layout PlanManifest where
  entries := entries
  read := read
  specs := specs
  normal := normal
  keys_nodup := by decide
  yields_iff := yields_iff
  entries_perm _ := List.Perm.refl _
  entries_normal manifest := by
    simp [normalizeTable, entries, normal, normalize, normalizeItems_eq_map]
  valid_normal manifest := by
    simp only [specs, List.forall_mem_cons]
    exact ⟨id, id, id, (isMap_normalize _).trans, id, id,
      (isMap_normalize _).trans, (isMap_normalize _).trans, by simp⟩

theorem roundTrips : RoundTrips canonicalBytes decode normal :=
  (layout.codec noFurtherCheck fun _ h => h).roundTrips_decodeValidated

end PlanManifest

namespace LifecycleEvent

def specs : List (FieldSpec LifecycleEvent) :=
  [.required 1 .version fun _ => (),
    .required 2 (.identifier "request ID" 16 2) requestId,
    .required 3 (.unsigned 3) sequence,
    .optional 4 (.digest 4) previousEventDigest,
    .required 5 (.digest 5) requestDigest,
    .required 6 (.unsigned 6) brokerEpoch,
    .required 7 (.unsigned 7) transition,
    .required 8 (.signed 8) occurredUtc,
    .required 9 (.unsigned 9) detailCode,
    .optional 10 (.digest 10) detailDigest]

theorem yields_iff (fields : Fields) (event : LifecycleEvent) :
    Yields read fields event ↔ ∀ spec ∈ specs, spec.Reads event fields := by
  simp (disch := decide) only [read, version, identifier, digestField,
    requiredUnsigned, optionalDigest, requiredSigned, yields_requiredAs_bind,
    yields_optionalField_bind, yields_pure, fieldIs_erase,
    optionalFieldIs_erase, specs, List.forall_mem_cons]
  constructor
  · intro h
    obtain ⟨_, h1, _, h2, _, h3, _, h4, _, h5, _, h6, _, h7, _, h8, _, h9, _,
      h10, rfl⟩ := h
    exact ⟨h1, h2, h3, h4, h5, h6, h7, h8, h9, h10, by simp⟩
  · intro h
    obtain ⟨h1, h2, h3, h4, h5, h6, h7, h8, h9, h10, -⟩ := h
    exact ⟨_, h1, _, h2, _, h3, _, h4, _, h5, _, h6, _, h7, _, h8, _, h9, _,
      h10, rfl⟩

theorem perm_move_forward {α : Type} (front middle rest : List α) (moved : α) :
    (front ++ (middle ++ moved :: rest)).Perm
      (front ++ moved :: (middle ++ rest)) :=
  List.perm_middle.append_left front

/-- Field 4 moves from behind field 9 to its place. -/
theorem entries_perm (event : LifecycleEvent) :
    event.entries.Perm (writtenEntries specs event) := by
  obtain ⟨_, _, previous, _, _, _, _, _, detail⟩ := event
  cases previous with
  | none =>
      cases detail with
      | none => exact List.Perm.refl _
      | some detail => exact List.Perm.refl _
  | some previous =>
      cases detail with
      | none => exact perm_move_forward [_, _, _] [_, _, _, _, _] [] _
      | some detail => exact perm_move_forward [_, _, _] [_, _, _, _, _] [_] _

theorem normalizeTable_entries (event : LifecycleEvent) :
    normalizeTable event.entries = event.entries := by
  cases hPrevious : event.previousEventDigest <;>
    cases hDetail : event.detailDigest <;>
    simp [normalizeTable, entries, normalize, optionalEntry, hPrevious, hDetail]

def layout : Layout LifecycleEvent where
  entries := entries
  read := read
  specs := specs
  normal event := event
  keys_nodup := by decide
  yields_iff := yields_iff
  entries_perm := entries_perm
  entries_normal event := (normalizeTable_entries event).symm
  valid_normal _ _ _ h := h

theorem roundTrips : RoundTrips canonicalBytes decode fun event => event :=
  (layout.codec checkPrevious fun _ h => h).roundTrips_decodeValidated

end LifecycleEvent

namespace Receipt

def specs : List (FieldSpec Receipt) :=
  [.required 1 .version fun _ => (),
    .required 2 (.identifier "receipt ID" 16 2) receiptId,
    .required 3 (.identifier "request ID" 16 3) requestId,
    .required 4 (.digest 4) requestDigest,
    .required 5 (.digest 5) planDigest,
    .required 6 (.unsigned 6) terminalState,
    .required 7 (.array 7) authorizationEvidence,
    .required 8 (.map 8) prestateEvidence,
    .required 9 (.map 9) executionEvidence,
    .required 10 (.signed 10) createdUtc,
    .required 11 (.signed 11) completedUtc,
    .required 12 (.unsigned 12) brokerEpoch]

def normal (receipt : Receipt) : Receipt :=
  { receipt with
    authorizationEvidence := receipt.authorizationEvidence.map normalize
    prestateEvidence := normalize receipt.prestateEvidence
    executionEvidence := normalize receipt.executionEvidence }

theorem yields_iff (fields : Fields) (receipt : Receipt) :
    Yields read fields receipt ↔ ∀ spec ∈ specs, spec.Reads receipt fields := by
  simp (disch := decide) only [read, version, identifier, digestField,
    requiredUnsigned, requiredArray, requiredMap, requiredSigned,
    yields_requiredAs_bind, yields_pure, fieldIs_erase, specs,
    List.forall_mem_cons]
  constructor
  · intro h
    obtain ⟨_, h1, _, h2, _, h3, _, h4, _, h5, _, h6, _, h7, _, h8, _, h9, _,
      h10, _, h11, _, h12, rfl⟩ := h
    exact ⟨h1, h2, h3, h4, h5, h6, h7, h8, h9, h10, h11, h12, by simp⟩
  · intro h
    obtain ⟨h1, h2, h3, h4, h5, h6, h7, h8, h9, h10, h11, h12, -⟩ := h
    exact ⟨_, h1, _, h2, _, h3, _, h4, _, h5, _, h6, _, h7, _, h8, _, h9, _,
      h10, _, h11, _, h12, rfl⟩

def layout : Layout Receipt where
  entries := entries
  read := read
  specs := specs
  normal := normal
  keys_nodup := by decide
  yields_iff := yields_iff
  entries_perm _ := List.Perm.refl _
  entries_normal receipt := by
    simp [normalizeTable, entries, normal, normalize, normalizeItems_eq_map]
  valid_normal receipt := by
    simp only [specs, List.forall_mem_cons]
    exact ⟨id, id, id, id, id, id, id, (isMap_normalize _).trans,
      (isMap_normalize _).trans, id, id, id, by simp⟩

theorem roundTrips : RoundTrips canonicalBytes decode normal :=
  (layout.codec checkTimes fun _ h => h).roundTrips_decodeValidated

/-- The canonical bytes of a receipt, which is not completed before its request was
created. -/
theorem canonicalBytes_eq_ok_iff {receipt : Receipt} {payload : Bytes} :
    receipt.canonicalBytes = .ok payload ↔
      (layout.Valid receipt ∧ receipt.createdUtc ≤ receipt.completedUtc) ∧
        encode receipt.toCbor = .ok payload := by
  have hBytes : (layout.codec checkTimes fun _ h => h).canonicalBytes receipt =
      .ok payload ↔ (layout.codec checkTimes fun _ h => h).validate receipt = .ok () ∧
        encode receipt.toCbor = .ok payload := Codec.canonicalBytes_eq_ok_iff
  have hTimes : receipt.checkTimes = .ok () ↔
      receipt.createdUtc ≤ receipt.completedUtc := by
    rw [checkTimes, rejectIf_eq_ok_iff, Int64.not_lt]
  rw [Codec.validate_eq_ok_iff] at hBytes
  rw [← hTimes]
  constructor
  · intro h
    obtain ⟨⟨hValid, -, hChecked⟩, hEncode⟩ := hBytes.mp h
    exact ⟨⟨hValid, hChecked⟩, hEncode⟩
  · intro h
    obtain ⟨⟨hValid, hChecked⟩, hEncode⟩ := h
    exact hBytes.mpr ⟨⟨hValid, trivial, hChecked⟩, hEncode⟩

end Receipt

namespace EnrollmentStatement

def specs : List (FieldSpec EnrollmentStatement) :=
  [.required 1 .version fun _ => (),
    .required 2 (.digest 2) tenantSubjectDigest,
    .required 3 (.identifier "device ID" 16 3) deviceId,
    .required 4 (.digest 4) brokerPubkey,
    .required 5 (.array 5) credentialSet,
    .required 6 (.digest 6) pairingNonce,
    .required 7 (.digest 7) comparisonDigest,
    .required 8 (.nonEmptyText 8 253) rpId,
    .required 9 (.nonEmptyText 9 255) origin,
    .required 10 (.unsigned 10) nextGeneration,
    .required 11 (.signed 11) expiresUtc]

def normal (statement : EnrollmentStatement) : EnrollmentStatement :=
  { statement with credentialSet := statement.credentialSet.map normalize }

theorem yields_iff (fields : Fields) (statement : EnrollmentStatement) :
    Yields read fields statement ↔
      ∀ spec ∈ specs, spec.Reads statement fields := by
  simp (disch := decide) only [read, version, identifier, digestField,
    requiredUnsigned, requiredArray, requiredNonEmptyText, requiredSigned,
    yields_requiredAs_bind, yields_pure, fieldIs_erase, specs,
    List.forall_mem_cons]
  constructor
  · intro h
    obtain ⟨_, h1, _, h2, _, h3, _, h4, _, h5, _, h6, _, h7, _, h8, _, h9, _,
      h10, _, h11, rfl⟩ := h
    exact ⟨h1, h2, h3, h4, h5, h6, h7, h8, h9, h10, h11, by simp⟩
  · intro h
    obtain ⟨h1, h2, h3, h4, h5, h6, h7, h8, h9, h10, h11, -⟩ := h
    exact ⟨_, h1, _, h2, _, h3, _, h4, _, h5, _, h6, _, h7, _, h8, _, h9, _,
      h10, _, h11, rfl⟩

def layout : Layout EnrollmentStatement where
  entries := entries
  read := read
  specs := specs
  normal := normal
  keys_nodup := by decide
  yields_iff := yields_iff
  entries_perm _ := List.Perm.refl _
  entries_normal statement := by
    simp [normalizeTable, entries, normal, normalize, normalizeItems_eq_map]
  valid_normal statement := by
    simp only [specs, List.forall_mem_cons]
    exact ⟨id, id, id, id, id, id, id, id, id, id, id, by simp⟩

theorem roundTrips : RoundTrips canonicalBytes decode normal :=
  (layout.codec noFurtherCheck fun _ h => h).roundTrips_decodeValidated

end EnrollmentStatement

namespace ServiceKeyset

def specs : List (FieldSpec ServiceKeyset) :=
  [.required 1 .version fun _ => (),
    .required 2 (.unsigned 2) keysetVersion,
    .required 3 (.signed 3) issuedUtc,
    .required 4 (.array 4) keys,
    .required 5 (.boundedBytes 5 8 32) rootKid,
    .required 6 (.signed 6) expiresUtc]

def normal (keyset : ServiceKeyset) : ServiceKeyset :=
  { keyset with keys := keyset.keys.map normalize }

theorem yields_iff (fields : Fields) (keyset : ServiceKeyset) :
    Yields read fields keyset ↔ ∀ spec ∈ specs, spec.Reads keyset fields := by
  simp (disch := decide) only [read, version, requiredUnsigned, requiredArray,
    requiredBoundedBytes, requiredSigned, yields_requiredAs_bind, yields_pure,
    fieldIs_erase, specs, List.forall_mem_cons]
  constructor
  · intro h
    obtain ⟨_, h1, _, h2, _, h3, _, h4, _, h5, _, h6, rfl⟩ := h
    exact ⟨h1, h2, h3, h4, h5, h6, by simp⟩
  · intro h
    obtain ⟨h1, h2, h3, h4, h5, h6, -⟩ := h
    exact ⟨_, h1, _, h2, _, h3, _, h4, _, h5, _, h6, rfl⟩

def layout : Layout ServiceKeyset where
  entries := entries
  read := read
  specs := specs
  normal := normal
  keys_nodup := by decide
  yields_iff := yields_iff
  entries_perm _ := List.Perm.refl _
  entries_normal keyset := by
    simp [normalizeTable, entries, normal, normalize, normalizeItems_eq_map]
  valid_normal keyset := by
    simp only [specs, List.forall_mem_cons]
    exact ⟨id, id, id, id, id, id, by simp⟩

theorem roundTrips : RoundTrips canonicalBytes decode normal :=
  (layout.codec checkValidity fun _ h => h).roundTrips_decodeValidated

end ServiceKeyset

namespace RevocationEvent

def specs : List (FieldSpec RevocationEvent) :=
  [.required 1 .version fun _ => (),
    .required 2 (.identifier "device ID" 16 2) deviceId,
    .required 3 (.boundedBytes 3 1 1024) credentialId,
    .required 4 (.signed 4) cutoffUtc,
    .required 5 (.identifier "service event ID" 16 5) serviceEventId,
    .required 6 (.unsigned 6) generationAtIssue,
    .required 7 (.unsigned 7) reasonCode]

theorem yields_iff (fields : Fields) (event : RevocationEvent) :
    Yields read fields event ↔ ∀ spec ∈ specs, spec.Reads event fields := by
  simp (disch := decide) only [read, version, identifier, requiredUnsigned,
    requiredBoundedBytes, requiredSigned, yields_requiredAs_bind, yields_pure,
    fieldIs_erase, specs, List.forall_mem_cons]
  constructor
  · intro h
    obtain ⟨_, h1, _, h2, _, h3, _, h4, _, h5, _, h6, _, h7, rfl⟩ := h
    exact ⟨h1, h2, h3, h4, h5, h6, h7, by simp⟩
  · intro h
    obtain ⟨h1, h2, h3, h4, h5, h6, h7, -⟩ := h
    exact ⟨_, h1, _, h2, _, h3, _, h4, _, h5, _, h6, _, h7, rfl⟩

def layout : Layout RevocationEvent where
  entries := entries
  read := read
  specs := specs
  normal event := event
  keys_nodup := by decide
  yields_iff := yields_iff
  entries_perm _ := List.Perm.refl _
  entries_normal event := by
    simp [normalizeTable, entries, normalize]
  valid_normal _ _ _ h := h

theorem roundTrips : RoundTrips canonicalBytes decode fun event => event :=
  (layout.codec noFurtherCheck fun _ h => h).roundTrips_decodeWith
    fun _ _ => rfl

end RevocationEvent

/-! ### All schemas -/

/-- Every schema round-trips on the wire: bytes that decode are written back
unchanged, a message that is written decodes to itself with its free-form fields
in canonical order, and its digest hashes the bytes that were written. -/
theorem schemas_roundTrip [Cryptography] :
    RoundTrips Request.canonicalBytes Request.decode Request.normal ∧
    RoundTrips ApprovalContext.canonicalBytes ApprovalContext.decode
      (fun context => context) ∧
    RoundTrips DecisionSubmission.canonicalBytes DecisionSubmission.decode
      (fun submission => submission) ∧
    RoundTrips PlanManifest.canonicalBytes PlanManifest.decode
      PlanManifest.normal ∧
    RoundTrips LifecycleEvent.canonicalBytes LifecycleEvent.decode
      (fun event => event) ∧
    RoundTrips Receipt.canonicalBytes Receipt.decode Receipt.normal ∧
    RoundTrips EnrollmentStatement.canonicalBytes EnrollmentStatement.decode
      EnrollmentStatement.normal ∧
    RoundTrips ServiceKeyset.canonicalBytes ServiceKeyset.decode
      ServiceKeyset.normal ∧
    RoundTrips RevocationEvent.canonicalBytes RevocationEvent.decode
      (fun event => event) ∧
    DigestsWireBytes .request Request.canonicalBytes Request.digest ∧
    DigestsWireBytes .decision ApprovalContext.canonicalBytes
      ApprovalContext.digest ∧
    DigestsWireBytes .aptPlan PlanManifest.canonicalBytes PlanManifest.digest ∧
    DigestsWireBytes .receipt Receipt.canonicalBytes Receipt.digest ∧
    DigestsWireBytes .enrollment EnrollmentStatement.canonicalBytes
      EnrollmentStatement.digest ∧
    DigestsWireBytes .serviceKeyset ServiceKeyset.canonicalBytes
      ServiceKeyset.digest ∧
    DigestsWireBytes .revocation RevocationEvent.canonicalBytes
      RevocationEvent.digest :=
  ⟨Request.roundTrips, ApprovalContext.roundTrips, DecisionSubmission.roundTrips,
    PlanManifest.roundTrips, LifecycleEvent.roundTrips, Receipt.roundTrips,
    EnrollmentStatement.roundTrips, ServiceKeyset.roundTrips,
    RevocationEvent.roundTrips, digestWith_wireBytes .request _ _,
    digestWith_wireBytes .decision _ _, digestWith_wireBytes .aptPlan _ _,
    digestWith_wireBytes .receipt _ _, digestWith_wireBytes .enrollment _ _,
    digestWith_wireBytes .serviceKeyset _ _,
    digestWith_wireBytes .revocation _ _⟩

end Protocol
end RootPermit
