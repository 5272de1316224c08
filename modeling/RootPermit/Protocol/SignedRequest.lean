import RootPermit.Foundation.Sha256
import RootPermit.Protocol.CborSize
import RootPermit.Protocol.SchemaRoundTrip

/-!
# Requests in signed envelopes

A request travels as the payload of an envelope, a byte string inside an array.  The
encoding of a request may take as much as a message, the payload of an envelope only
as much as a byte string.  A request can be signed and read back exactly when its
encoding fits a byte string (`signed_and_read_iff`).

* `Request.small` — the length of the encoding of a request;
* `Request.canonicalBytes_ok` — the requests that have an encoding;
* `CoseSign1.payload_length_le` — the payloads that can be signed.
-/

namespace RootPermit
namespace Protocol

open Foundation

theorem length_of_validPackageName {name : String} (h : validPackageName name = true) :
    (utf8 name).length ≤ 255 := by
  unfold validPackageName at h
  cases hBytes : utf8 name with
  | nil => exact Nat.zero_le _
  | cons first rest =>
      rw [hBytes] at h
      simp only [Bool.and_eq_true, decide_eq_true_eq] at h
      exact h.1.1

namespace Request

/-- The reader of a request checks the length of its note and its package name. -/
theorem valid_iff {request : Request} :
    codec.toLayout.Valid request ↔
      validPackageName request.operationInput.packageName = true ∧
        ∀ note ∈ request.agentNote, (utf8 note).length ≤ 512 := by
  have hInput : OperationInput.layout.Valid request.operationInput ↔
      (utf8 request.operationInput.packageName).length ≤ 255 :=
    List.forall_mem_singleton
  unfold Layout.Valid
  simp only [codec, specs, List.forall_mem_cons]
  constructor
  · intro h
    obtain ⟨-, -, -, -, -, -, -, -, -, -, -, -, hName, -, -, -, -, hNote, -⟩ := h
    exact ⟨hName.2, hNote⟩
  · intro h
    obtain ⟨hName, hNote⟩ := h
    have hValid := hInput.mpr (length_of_validPackageName hName)
    exact ⟨trivial, trivial, trivial, trivial, trivial, trivial, trivial, trivial,
      trivial, trivial, trivial, trivial, ⟨hValid, hName⟩, trivial, trivial, trivial,
      trivial, hNote, by simp⟩

/-- How long the fields of a request are, if its plan takes `planSize` bytes. -/
def fieldSize (planSize : Nat) (key : UInt64) : Nat :=
  if key = 17 then planSize else 282

theorem sum_fieldSize {request : Request} {planSize : Nat}
    (hNote : request.agentNote = none) :
    (request.entries.map fun entry => 9 + fieldSize planSize entry.1).sum =
      planSize + 4665 := by
  have hKeys : request.entries.map Prod.fst =
      [1, 2, 3, 4, 5, 6, 7, 8, 9, 10, 11, 12, 13, 14, 15, 16, 17] := by
    rw [entries, hNote]
    rfl
  have hSizes : (request.entries.map fun entry => 9 + fieldSize planSize entry.1) =
      List.replicate 16 291 ++ [9 + planSize] := by
    change request.entries.map ((fun key => 9 + fieldSize planSize key) ∘ Prod.fst) = _
    rw [← List.map_map, hKeys]
    rfl
  rw [hSizes, List.sum_append_nat, List.sum_replicate_nat, List.sum_singleton]
  omega

/-- The record of a request without a note is as long as its plan and little more. -/
theorem small {request : Request} {room size : Nat}
    (hName : (utf8 request.operationInput.packageName).length ≤ 255)
    (hPlan : Small (room + 1) size request.frozenPlan)
    (hNote : request.agentNote = none) :
    Small (room + 2) (4674 + size) request.toCbor := by
  have hBytes : ∀ {length : Nat} (value : ByteArr length), length ≤ 32 →
      Small (room + 1) 282 (.bytes value.val) := fun value hLength =>
    (Small.byteArr value hLength (by decide)).mono (by omega) (by decide)
  have hUnsigned : ∀ value, Small (room + 1) 282 (.unsigned value) := fun value =>
    (Small.unsigned value).mono (by omega) (by decide)
  have hSigned : ∀ value, Small (room + 1) 282 (signed value) := fun value =>
    (Small.signed value).mono (by omega) (by decide)
  have hInput : Small (room + 1) 282 request.operationInput.toCbor := by
    have hName : Small 0 (9 + 255) (.text request.operationInput.packageName) :=
      Small.text hName (by decide)
    have hInput : Small (0 + 1) (9 + 1 * (9 + (9 + 255)))
        request.operationInput.toCbor :=
      Small.record (List.nodup_singleton _) le_rfl (by decide)
        (List.forall_mem_singleton.mpr hName)
    exact hInput.mono (by omega) le_rfl
  have hKeys : ((codec.entries request).map Prod.fst).Nodup :=
    Layout.entries_nodup request
  have hRecord : Small (room + 1 + 1)
      (9 + (request.entries.map fun entry => 9 + fieldSize size entry.1).sum)
      (record request.entries) := by
    refine Small.fields (fieldSize size) hKeys ?_ ?_
    · rw [entries, hNote]
      show 17 ≤ 128
      decide
    · simp only [entries, hNote, Option.map_none, optionalEntry, List.append_nil,
        List.forall_mem_cons]
      exact ⟨hUnsigned _, hBytes _ (by decide), hBytes _ (by decide), hUnsigned _,
        hUnsigned _, hSigned _, hSigned _, hBytes _ (by decide), hUnsigned _,
        hBytes _ (by decide), hUnsigned _, hUnsigned _,
        hInput, hBytes _ (by decide),
        hBytes _ (by decide), hBytes _ (by decide), hPlan, by simp⟩
  rw [sum_fieldSize hNote] at hRecord
  exact hRecord.mono le_rfl (by omega)

/-- A request with a proper package name, in order, without a note and with a plan that
is not too long has canonical bytes. -/
theorem canonicalBytes_ok {request : Request} {room size : Nat}
    (hTimes : request.createdUtc ≤ request.expiresUtc)
    (hName : validPackageName request.operationInput.packageName = true)
    (hMap : request.frozenPlan.isMap = true)
    (hPlan : Small (room + 1) size request.frozenPlan)
    (hNote : request.agentNote = none) (hRoom : room + 2 ≤ 16)
    (hSize : 4674 + size ≤ 1048576) :
    ∃ payload, request.canonicalBytes = .ok payload ∧
      payload.length ≤ 4674 + size := by
  obtain ⟨payload, hPayload, hLength⟩ :=
    (small (length_of_validPackageName hName) hPlan hNote).encode_eq_ok hRoom hSize
  have hBytes : codec.canonicalBytes request = .ok payload := by
    refine Codec.canonicalBytes_eq_ok_iff.mpr ⟨Codec.validate_eq_ok_iff.mpr
      ⟨valid_iff.mpr ⟨hName, by simp [hNote]⟩, ⟨Int64.not_lt.mpr hTimes, hMap⟩, ?_⟩,
      hPayload⟩
    show request.checkFrozenPlan = .ok ()
    rw [checkFrozenPlan, hMap]
    rfl
  exact ⟨payload, hBytes, hLength⟩

/-- The canonical bytes of a request contain those of its plan. -/
theorem length_frozenPlan_le {request : Request} {payload : Bytes}
    (h : request.canonicalBytes = .ok payload) :
    (referenceEncoding (normalize request.frozenPlan)).length ≤ payload.length := by
  have hBytes : codec.canonicalBytes request = .ok payload := h
  have hEncode := (Codec.canonicalBytes_eq_ok_iff.mp hBytes).2
  obtain ⟨-, -, rfl⟩ := encode_eq_ok_iff.mp hEncode
  have hPlan : (17, request.frozenPlan) ∈ request.entries :=
    List.mem_append_left _ (by simp)
  have hEntry : field 17 request.frozenPlan ∈
      request.entries.map fun entry : UInt64 × CborValue => field entry.1 entry.2 :=
    List.mem_map.mpr ⟨_, hPlan, rfl⟩
  have hSum := List.le_sum_of_mem (List.mem_map_of_mem (f := fun entry =>
    (referenceEncoding (normalize entry.1)).length +
      (referenceEncoding (normalize entry.2)).length) hEntry)
  show _ ≤ (referenceEncoding (normalize (.map
    (request.entries.map fun entry => field entry.1 entry.2)))).length
  rw [length_normalize_map]
  exact (Nat.le_add_left _ _).trans (hSum.trans (Nat.le_add_left _ _))

/-- The request can be signed under the key, the envelope can be sent, and the request
is read from it, its plan up to the order of map entries. -/
def SignsAndReads [Cryptography] (request : Request) (payload kid : Bytes)
    (signingKey : ByteArr 32) : Prop :=
  ∃ cose output, CoseSign1.sign payload kid 1 .request signingKey = .ok cose ∧
    cose.encode = .ok output ∧
    ∃ received found, CoseSign1.decode output = .ok received ∧
      Request.decode received.payload = .ok found ∧
      found = { request with frozenPlan := found.frozenPlan } ∧
      Reordered request.frozenPlan found.frozenPlan

end Request

/-- Only a payload that fits a byte string can be signed. -/
theorem CoseSign1.payload_length_le [Cryptography] {payload kid : Bytes}
    {contentType : UInt64} {domain : Domain} {signingKey : ByteArr 32}
    {cose : CoseSign1}
    (h : CoseSign1.sign payload kid contentType domain signingKey = .ok cose) :
    payload.length ≤ 65536 := by
  obtain ⟨header, message, -, hMessage, -⟩ := CoseSign1.sign_eq_ok_iff.mp h
  have hDecode := signatureStructure_eq_ok_iff.mp hMessage
  obtain ⟨-, -, hProfile⟩ := decodeWithLimits_eq_ok_iff.mp hDecode
  obtain ⟨-, -, hItems⟩ := inProfile_iff.mp hProfile
  have hPayload : InProfile .default 1 (.bytes payload) := hItems _ (by simp)
  exact (inProfile_iff.mp hPayload).2

/-- A request that has canonical bytes can be signed and read back, under every key,
exactly when these take at most 65536 bytes. -/
theorem signed_and_read_iff [Cryptography] {request : Request} {payload : Bytes}
    (h : request.canonicalBytes = .ok payload) {kid : Bytes}
    (hKid : 8 ≤ kid.length ∧ kid.length ≤ 32) (signingKey : ByteArr 32) :
    request.SignsAndReads payload kid signingKey ↔ payload.length ≤ 65536 := by
  constructor
  · intro hReads
    obtain ⟨cose, -, hSign, -⟩ := hReads
    exact CoseSign1.payload_length_le hSign
  · intro hPayload
    obtain ⟨cose, output, hSign, hEncode⟩ :=
      CoseSign1.exists_signed 1 .request signingKey hKid hPayload
    obtain ⟨header, message, -, -, rfl⟩ := CoseSign1.sign_eq_ok_iff.mp hSign
    have hDecode := Request.roundTrips.decode_of_canonicalBytes request payload h
    exact ⟨_, output, hSign, hEncode, _, request.normal,
      CoseSign1.decode_eq_ok_iff_encode.mpr hEncode, hDecode, rfl,
      reordered_normalize _⟩

/-- A request whose plan carries a byte string. -/
def requestCarrying (plan : Bytes) : Request where
  requestId := ByteArr.fill 16 1
  deviceId := ByteArr.fill 16 2
  brokerEpoch := 0
  generation := 0
  createdUtc := 10
  expiresUtc := 100
  bootId := ByteArr.fill 16 3
  deadlineMonoNs := 1000
  nonce := ByteArr.fill 32 4
  requesterUid := 1000
  operation := .packageInstall
  operationInput := { packageName := "jq" }
  policyId := ByteArr.fill 16 5
  policyDigest := ByteArr.fill 32 6
  planDigest := ByteArr.fill 32 7
  frozenPlan := .map [(.unsigned 1, .bytes plan)]
  agentNote := none

theorem small_carried {plan : Bytes} (hPlan : plan.length ≤ 65536) :
    Small (0 + 1) (27 + plan.length) (requestCarrying plan).frozenPlan := by
  have hBytes : Small 0 (9 + plan.length) (.bytes plan) := Small.bytes le_rfl hPlan
  have hRecord : Small (0 + 1) (9 + 1 * (9 + (9 + plan.length)))
      (record [(1, .bytes plan)]) :=
    Small.record (List.nodup_singleton _) le_rfl (by decide)
      (List.forall_mem_singleton.mpr hBytes)
  exact hRecord.mono le_rfl (by omega)

theorem requestCarrying_canonicalBytes {plan : Bytes} (hPlan : plan.length ≤ 65536) :
    ∃ payload, (requestCarrying plan).canonicalBytes = .ok payload ∧
      plan.length < payload.length ∧ payload.length ≤ 4701 + plan.length := by
  have hTimes : (requestCarrying plan).createdUtc ≤
      (requestCarrying plan).expiresUtc := by
    show (10 : Int64) ≤ 100
    decide
  have hName : validPackageName (requestCarrying plan).operationInput.packageName =
      true := by
    show validPackageName "jq" = true
    decide +kernel
  have hFits : 4674 + (27 + plan.length) ≤ 1048576 := by omega
  obtain ⟨payload, hPayload, hLength⟩ := Request.canonicalBytes_ok hTimes hName rfl
    (small_carried hPlan) rfl (by decide) hFits
  have hInside := Request.length_frozenPlan_le hPayload
  have hHead : 0 < (referenceHead 5 1).length := by decide
  have hCarried : (requestCarrying plan).frozenPlan =
      .map [(.unsigned 1, .bytes plan)] := rfl
  rw [hCarried, length_normalize_map] at hInside
  simp only [List.length_singleton, List.map_singleton, List.sum_singleton, normalize,
    referenceEncoding, List.length_append] at hInside
  refine ⟨payload, hPayload, by omega, by omega⟩

/-- A plan of 65536 bytes gives a request that has canonical bytes and that no key can
sign. -/
theorem long_plan_unsignable :
    let _ : Cryptography := keyedHashCryptography
    ¬ ∀ (request : Request) (payload kid : Bytes) (signingKey : ByteArr 32),
      request.canonicalBytes = .ok payload → 8 ≤ kid.length ∧ kid.length ≤ 32 →
        request.SignsAndReads payload kid signingKey := by
  intro _ h
  have hPlan : (List.replicate 65536 (0 : UInt8)).length = 65536 :=
    List.length_replicate
  obtain ⟨payload, hPayload, hLong, -⟩ := requestCarrying_canonicalBytes hPlan.le
  have hKid : 8 ≤ (utf8 "broker-key").length ∧ (utf8 "broker-key").length ≤ 32 := by
    decide +kernel
  obtain ⟨cose, -, hSign, -⟩ :=
    h _ payload (utf8 "broker-key") (ByteArr.fill 32 7) hPayload hKid
  have hShort := CoseSign1.payload_length_le hSign
  omega

/-- A request with a short plan is signed and read back. -/
theorem signed_and_read_sample :
    let _ : Cryptography := keyedHashCryptography
    ∃ payload, (requestCarrying [1, 2, 3]).canonicalBytes = .ok payload ∧
      (requestCarrying [1, 2, 3]).SignsAndReads payload (utf8 "broker-key")
        (ByteArr.fill 32 7) := by
  intro _
  obtain ⟨payload, hPayload, -, hLength⟩ :=
    requestCarrying_canonicalBytes (show [1, 2, 3].length ≤ 65536 by decide)
  have hKid : 8 ≤ (utf8 "broker-key").length ∧ (utf8 "broker-key").length ≤ 32 := by
    decide +kernel
  have hShort : payload.length ≤ 65536 := hLength.trans (by decide)
  exact ⟨payload, hPayload,
    (signed_and_read_iff hPayload hKid (ByteArr.fill 32 7)).mpr hShort⟩

end Protocol
end RootPermit
