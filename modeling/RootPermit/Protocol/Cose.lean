import RootPermit.Foundation.Sha256
import RootPermit.Protocol.Digest

/-!
# COSE_Sign1 envelopes

This module embeds `rp-protocol/src/cose.rs`.  An envelope carries its payload
and a protected header that names the algorithm, the content type and the key.
What is signed is the array `["Signature1", header, domain label, payload]`.

* `parseProtected_protectedBytes` — the header bytes that are signed determine
  the header fields that are checked;
* `signedMessage_inj` — the signed bytes determine the key ID, the content type,
  the domain and the payload;
* `protectedBytes_parseProtected` — an accepted header is the one written for
  its fields;
* `decode_eq_ok_iff_encode`, `wireForm_unique` — decoding and encoding are
  inverse to each other, and an envelope has one wire form;
* `verify_sign` — an envelope that was signed verifies.
-/

namespace RootPermit
namespace Protocol

open Foundation

inductive CoseError where
  | cbor (fault : DecodeError)
  | encode (fault : EncodeError)
  | notSign1
  | invalidStructure
  | invalidProtectedHeader
  | unprotectedHeaderPresent
  | unsupportedAlgorithm
  | invalidKid
  | contentTypeMismatch
  | invalidSignatureLength
  | invalidSignature
  | keyRoleMismatch
  | keyOutsideValidity
  deriving DecidableEq, Repr

inductive KeyRole where
  | broker
  | serviceRoot
  | decisionProof
  | revocation
  | enrollment
  deriving DecidableEq, Repr

def COSE_EDDSA : Int64 := -8

def validateKid (kid : Bytes) : Except CoseError Unit :=
  rejectIf (¬ (8 ≤ kid.length ∧ kid.length ≤ 32)) .invalidKid

/-- Trusted key material; the end of its validity is exclusive. -/
structure VerificationKey where
  kid : Bytes
  publicKey : ByteArr 32
  notBeforeUtc : Int64
  notAfterUtc : Int64
  roles : List KeyRole
  deriving DecidableEq, Repr

namespace VerificationKey

def new (kid : Bytes) (publicKey : ByteArr 32) (notBeforeUtc notAfterUtc : Int64)
    (roles : List KeyRole) : Except CoseError VerificationKey := do
  validateKid kid
  rejectIf (notAfterUtc ≤ notBeforeUtc ∨ roles.isEmpty) .keyOutsideValidity
  return { kid, publicKey, notBeforeUtc, notAfterUtc, roles }

def permits (key : VerificationKey) (role : KeyRole) (nowUtc : Int64) :
    Except CoseError Unit := do
  rejectIf (role ∉ key.roles) .keyRoleMismatch
  rejectIf (nowUtc < key.notBeforeUtc ∨ nowUtc ≥ key.notAfterUtc)
    .keyOutsideValidity

end VerificationKey

structure VerificationPolicy where
  contentType : UInt64
  domain : Domain
  requiredRole : KeyRole
  nowUtc : Int64
  deriving DecidableEq, Repr

/-! ### The protected header -/

def protectedHeader (kid : Bytes) (contentType : UInt64) : CborValue :=
  .map [(.unsigned 1, .negative COSE_EDDSA),
    (.unsigned 3, .unsigned contentType),
    (.unsigned 4, .bytes kid)]

def protectedBytes (kid : Bytes) (contentType : UInt64) :
    Except CoseError Bytes := do
  validateKid kid
  (encode (protectedHeader kid contentType)).mapError .encode

/-- The header fields found so far. -/
structure HeaderFields where
  algorithm : Option Int64
  contentType : Option UInt64
  kid : Option Bytes

/-- One entry of the header; the type of its value has to fit its label. -/
def headerField (found : HeaderFields) (key : UInt64) :
    CborValue → Except CoseError HeaderFields
  | .negative value =>
      if key = 1 then .ok { found with algorithm := some value }
      else .error .invalidProtectedHeader
  | .unsigned value =>
      if key = 3 then .ok { found with contentType := some value }
      else .error .invalidProtectedHeader
  | .bytes value =>
      if key = 4 then .ok { found with kid := some value }
      else .error .invalidProtectedHeader
  | _ => .error .invalidProtectedHeader

def headerFields : List (CborValue × CborValue) → HeaderFields →
    Except CoseError HeaderFields
  | [], found => .ok found
  | (.unsigned key, value) :: rest, found => do
      let found ← headerField found key value
      headerFields rest found
  | _ :: _, _ => .error .invalidProtectedHeader

def parseProtected (bytes : Bytes) : Except CoseError (Bytes × UInt64) := do
  match ← (decode bytes).mapError CoseError.cbor with
  | .map entries => do
      rejectIf (entries.length ≠ 3) CoseError.invalidProtectedHeader
      let found ← headerFields entries ⟨none, none, none⟩
      rejectIf (found.algorithm ≠ some COSE_EDDSA) CoseError.unsupportedAlgorithm
      let kid ← orFault CoseError.invalidProtectedHeader found.kid
      validateKid kid
      let contentType ← orFault CoseError.invalidProtectedHeader found.contentType
      return (kid, contentType)
  | _ => .error CoseError.invalidProtectedHeader

def signatureArray (header : Bytes) (domain : Domain) (payload : Bytes) :
    CborValue :=
  .array [.text "Signature1", .bytes header, .bytes domain.label, .bytes payload]

/-- The bytes that are signed. -/
def signatureStructure (header : Bytes) (domain : Domain) (payload : Bytes) :
    Except CoseError Bytes :=
  (encode (signatureArray header domain payload)).mapError .encode

/-! ### Envelopes -/

/-- An envelope; its header bytes are private to the source module. -/
structure CoseSign1 where
  kid : Bytes
  contentType : UInt64
  payload : Bytes
  signature : ByteArr 64
  header : Bytes
  deriving DecidableEq, Repr

namespace CoseSign1

def sign [Cryptography] (payload kid : Bytes) (contentType : UInt64)
    (domain : Domain) (signingKey : ByteArr 32) : Except CoseError CoseSign1 := do
  validateKid kid
  let header ← protectedBytes kid contentType
  let message ← signatureStructure header domain payload
  let signature := Cryptography.sign signingKey message
  return { kid, contentType, payload, signature, header }

def envelope (header payload signature : Bytes) : CborValue :=
  .tag 18 (.array [.bytes header, .map [], .bytes payload, .bytes signature])

/-- The parts of the tagged array, in the order in which they are checked. -/
def parts (value : CborValue) : Except CoseError (Bytes × Bytes × ByteArr 64) :=
  match value with
  | .tag tag tagged => do
      rejectIf (tag ≠ 18) .notSign1
      match tagged with
      | .array [.bytes header, unprotected, payload, signature] =>
          match unprotected with
          | .map unprotected => do
              rejectIf (!unprotected.isEmpty) .unprotectedHeaderPresent
              match payload, signature with
              | .bytes payload, .bytes signature => do
                  let signature ←
                    orFault .invalidSignatureLength (ByteArr.ofBytes? 64 signature)
                  return (header, payload, signature)
              | _, _ => .error .invalidStructure
          | _ => .error .invalidStructure
      | _ => .error .invalidStructure
  | _ => .error .notSign1

def decode (input : Bytes) : Except CoseError CoseSign1 := do
  let value ← (Protocol.decode input).mapError CoseError.cbor
  let (header, payload, signature) ← parts value
  let (kid, contentType) ← parseProtected header
  return { kid, contentType, payload, signature, header }

def encode (cose : CoseSign1) : Except CoseError Bytes := do
  let header ← protectedBytes cose.kid cose.contentType
  rejectIf (cose.header ≠ header) .invalidProtectedHeader
  (Protocol.encode (envelope header cose.payload cose.signature.val)).mapError .encode

def verify [Cryptography] (cose : CoseSign1) (key : VerificationKey)
    (policy : VerificationPolicy) : Except CoseError Unit := do
  rejectIf (cose.contentType ≠ policy.contentType) .contentTypeMismatch
  rejectIf (cose.kid ≠ key.kid) .invalidKid
  key.permits policy.requiredRole policy.nowUtc
  let message ← signatureStructure cose.header policy.domain cose.payload
  rejectIf (Cryptography.verify key.publicKey message cose.signature = false)
    .invalidSignature

end CoseSign1

/-! ### Headers and signed bytes -/

@[simp] theorem validateKid_eq_ok_iff {kid : Bytes} {result : Unit} :
    validateKid kid = .ok result ↔ 8 ≤ kid.length ∧ kid.length ≤ 32 := by
  rw [validateKid, rejectIf_eq_ok_iff, not_not]

/-- The entries of a protected header, in the order in which they are written. -/
def headerEntries (kid : Bytes) (contentType : UInt64) :
    List (CborValue × CborValue) :=
  [(.unsigned 1, .negative COSE_EDDSA), (.unsigned 3, .unsigned contentType),
    (.unsigned 4, .bytes kid)]

theorem keysIncrease_headerEntries (kid : Bytes) (contentType : UInt64) :
    KeysIncrease writtenKey (headerEntries kid contentType) := by
  have hKeys : [referenceEncoding (.unsigned 1), referenceEncoding (.unsigned 3),
      referenceEncoding (.unsigned 4)].Pairwise
      fun first second => shortlex first second = .lt := by
    decide +kernel
  have hPairs : [referenceEncoding (.unsigned 1), referenceEncoding (.unsigned 3),
      referenceEncoding (.unsigned 4)].Pairwise ShortlexLt :=
    hKeys.imp shortlex_eq_lt_iff.mp
  exact List.pairwise_map.mp hPairs

theorem normalize_protectedHeader (kid : Bytes) (contentType : UInt64) :
    normalize (protectedHeader kid contentType) =
      protectedHeader kid contentType := by
  have hOrder := keysIncrease_headerEntries kid contentType
  have hMap : protectedHeader kid contentType =
      .map (headerEntries kid contentType) := rfl
  rw [hMap, normalize_map, hOrder.sortByKey_eq]
  rfl

theorem protectedBytes_eq_ok_iff {kid header : Bytes} {contentType : UInt64} :
    protectedBytes kid contentType = .ok header ↔
      (8 ≤ kid.length ∧ kid.length ≤ 32) ∧
        decode header = .ok (protectedHeader kid contentType) := by
  simp only [protectedBytes, bind_eq_ok_iff, validateKid_eq_ok_iff,
    mapError_eq_ok_iff, exists_const, encode_eq_ok_iff_decode,
    normalize_protectedHeader]

/-- The header bytes that are signed determine the fields that are checked. -/
theorem parseProtected_protectedBytes {kid header : Bytes} {contentType : UInt64}
    (h : protectedBytes kid contentType = .ok header) :
    parseProtected header = .ok (kid, contentType) := by
  obtain ⟨hKid, hDecode⟩ := protectedBytes_eq_ok_iff.mp h
  have hValid : validateKid kid = .ok () := validateKid_eq_ok_iff.mpr hKid
  simp [parseProtected, hDecode, Except.mapError, protectedHeader, rejectIf,
    headerFields, headerField, orFault, hValid]

/-- An entry is read into the field that its label names. -/
theorem headerField_eq_ok_iff {found next : HeaderFields} {key : UInt64}
    {value : CborValue} :
    headerField found key value = .ok next ↔
      (∃ algorithm, key = 1 ∧ value = .negative algorithm ∧
        next = { found with algorithm := some algorithm }) ∨
      (∃ contentType, key = 3 ∧ value = .unsigned contentType ∧
        next = { found with contentType := some contentType }) ∨
      ∃ kid, key = 4 ∧ value = .bytes kid ∧
        next = { found with kid := some kid } := by
  cases value with
  | unsigned value => by_cases hKey : key = 3 <;> simp [headerField, hKey, eq_comm]
  | negative value => by_cases hKey : key = 1 <;> simp [headerField, hKey, eq_comm]
  | bytes value => by_cases hKey : key = 4 <;> simp [headerField, hKey, eq_comm]
  | _ => simp [headerField]

/-- Every field that was found was found before or stands among the entries. -/
theorem headerFields_mem {entries : List (CborValue × CborValue)}
    {found last : HeaderFields} (h : headerFields entries found = .ok last) :
    (∀ algorithm, last.algorithm = some algorithm →
      found.algorithm = some algorithm ∨
        (.unsigned 1, .negative algorithm) ∈ entries) ∧
    (∀ contentType, last.contentType = some contentType →
      found.contentType = some contentType ∨
        (.unsigned 3, .unsigned contentType) ∈ entries) ∧
    ∀ kid, last.kid = some kid →
      found.kid = some kid ∨ (.unsigned 4, .bytes kid) ∈ entries := by
  induction entries generalizing found with
  | nil =>
      rw [headerFields, Except.ok.injEq] at h
      subst h
      exact ⟨fun _ => .inl, fun _ => .inl, fun _ => .inl⟩
  | cons entry rest ih =>
      obtain ⟨key, value⟩ := entry
      cases key with
      | unsigned key =>
          obtain ⟨next, hEntry, hRest⟩ := bind_eq_ok_iff.mp h
          obtain ⟨hAlgorithm, hType, hKid⟩ := ih hRest
          rcases headerField_eq_ok_iff.mp hEntry with
            ⟨value, rfl, rfl, rfl⟩ | ⟨value, rfl, rfl, rfl⟩ | ⟨value, rfl, rfl, rfl⟩
          · simp only [List.mem_cons]
            grind
          · simp only [List.mem_cons]
            grind
          · simp only [List.mem_cons]
            grind
      | _ => simp [headerFields] at h

/-- A header that is accepted is, byte for byte, the header that is written for
the fields read from it. -/
theorem protectedBytes_parseProtected {kid header : Bytes} {contentType : UInt64}
    (h : parseProtected header = .ok (kid, contentType)) :
    protectedBytes kid contentType = .ok header := by
  obtain ⟨value, hDecode, hEntries⟩ := bind_eq_ok_iff.mp h
  have hDecode : decode header = .ok value := mapError_eq_ok_iff.mp hDecode
  cases value with
  | map entries =>
      simp only [bind_eq_ok_iff, rejectIf_eq_ok_iff, not_not, exists_const,
        orFault_eq_ok_iff, validateKid_eq_ok_iff, pure_eq_ok, Except.ok.injEq,
        Prod.mk.injEq] at hEntries
      obtain ⟨hLength, found, hFound, hAlgorithm, kid, hKid, hValid, contentType,
        hType, rfl, rfl⟩ := hEntries
      obtain ⟨hFirst, hSecond, hThird⟩ := headerFields_mem hFound
      have hSubset : headerEntries kid contentType ⊆ entries := by
        intro entry hEntry
        simp only [headerEntries, List.mem_cons, List.not_mem_nil, or_false] at hEntry
        rcases hEntry with rfl | rfl | rfl
        · simpa using hFirst _ hAlgorithm
        · simpa using hSecond _ hType
        · simpa using hThird _ hKid
      -- Three entries that are all present leave room for no other one.
      have hNodup : (headerEntries kid contentType).Nodup :=
        (keysIncrease_headerEntries kid contentType).nodup.of_map
      have hPerm : (headerEntries kid contentType).Perm entries :=
        (List.subperm_of_subset hNodup hSubset).perm_of_length_le hLength.le
      have hNormal : normalize (.map entries) = .map entries :=
        normalize_eq_self (decode_eq_ok_iff.mp hDecode).2.1
      have hSame : protectedHeader kid contentType = .map entries := by
        rw [← hNormal, ← normalize_protectedHeader]
        exact normalize_map_congr_perm hPerm
          (keysIncrease_headerEntries kid contentType).nodup
      rw [protectedBytes_eq_ok_iff, hSame]
      exact ⟨hValid, hDecode⟩
  | _ => cases hEntries

theorem protectedBytes_eq_ok_iff_parseProtected {kid header : Bytes}
    {contentType : UInt64} :
    protectedBytes kid contentType = .ok header ↔
      parseProtected header = .ok (kid, contentType) :=
  ⟨parseProtected_protectedBytes, protectedBytes_parseProtected⟩

theorem normalize_signatureArray (header : Bytes) (domain : Domain)
    (payload : Bytes) :
    normalize (signatureArray header domain payload) =
      signatureArray header domain payload := rfl

theorem signatureStructure_eq_ok_iff {header payload message : Bytes}
    {domain : Domain} :
    signatureStructure header domain payload = .ok message ↔
      decode message = .ok (signatureArray header domain payload) := by
  rw [signatureStructure, mapError_eq_ok_iff, encode_eq_ok_iff_decode,
    normalize_signatureArray]

theorem label_injective {first second : Domain}
    (h : first.label = second.label) : first = second :=
  label_prefixFree (h ▸ List.prefix_rfl)

/-- The signed bytes determine the header, the domain and the payload. -/
theorem signatureStructure_inj {header header' payload payload' message : Bytes}
    {domain domain' : Domain}
    (h : signatureStructure header domain payload = .ok message)
    (h' : signatureStructure header' domain' payload' = .ok message) :
    header = header' ∧ domain = domain' ∧ payload = payload' := by
  rw [signatureStructure_eq_ok_iff] at h h'
  rw [h, Except.ok.injEq] at h'
  simp only [signatureArray, CborValue.array.injEq, List.cons.injEq,
    CborValue.bytes.injEq, true_and, and_true] at h'
  exact ⟨h'.1, label_injective h'.2.1, h'.2.2⟩

/-! ### Envelopes that were signed -/

namespace CoseSign1

theorem sign_eq_ok_iff [Cryptography] {payload kid : Bytes}
    {contentType : UInt64} {domain : Domain} {signingKey : ByteArr 32}
    {cose : CoseSign1} :
    sign payload kid contentType domain signingKey = .ok cose ↔
      ∃ header message, protectedBytes kid contentType = .ok header ∧
        signatureStructure header domain payload = .ok message ∧
        cose = { kid, contentType, payload, header
                 signature := Cryptography.sign signingKey message } := by
  simp only [sign, bind_eq_ok_iff, validateKid_eq_ok_iff, exists_const,
    pure_eq_ok, Except.ok.injEq]
  constructor
  · intro h
    obtain ⟨-, header, hHeader, message, hMessage, rfl⟩ := h
    exact ⟨header, message, hHeader, hMessage, rfl⟩
  · intro h
    obtain ⟨header, message, hHeader, hMessage, rfl⟩ := h
    exact ⟨(protectedBytes_eq_ok_iff.mp hHeader).1, header, hHeader, message,
      hMessage, rfl⟩

theorem parts_envelope (header payload : Bytes) (signature : ByteArr 64) :
    parts (envelope header payload signature.val) =
      .ok (header, payload, signature) := by
  simp [parts, envelope, rejectIf, orFault]

theorem parts_eq_ok_iff {value : CborValue} {header payload : Bytes}
    {signature : ByteArr 64} :
    parts value = .ok (header, payload, signature) ↔
      value = envelope header payload signature.val := by
  constructor
  · intro h
    unfold parts at h
    split at h
    · simp only [bind_eq_ok_iff, rejectIf_eq_ok_iff, not_not, exists_const] at h
      obtain ⟨rfl, h⟩ := h
      split at h
      · split at h
        · simp only [bind_eq_ok_iff, rejectIf_eq_ok_iff, exists_const,
            Bool.not_eq_true', Bool.not_eq_false, List.isEmpty_iff] at h
          obtain ⟨rfl, h⟩ := h
          split at h
          · simp only [bind_eq_ok_iff, orFault_eq_ok_iff, ByteArr.ofBytes?_eq_some_iff,
              pure_eq_ok, Except.ok.injEq, Prod.mk.injEq] at h
            obtain ⟨_, hSignature, rfl, rfl, rfl⟩ := h
            rw [envelope, hSignature]
          · cases h
        · cases h
      · cases h
    · cases h
  · intro h
    rw [h, parts_envelope]

/-- What is decoded is an envelope with an accepted header. -/
theorem decode_eq_ok_iff {input : Bytes} {cose : CoseSign1} :
    decode input = .ok cose ↔
      Protocol.decode input =
        .ok (envelope cose.header cose.payload cose.signature.val) ∧
      parseProtected cose.header = .ok (cose.kid, cose.contentType) := by
  obtain ⟨kid, contentType, payload, signature, header⟩ := cose
  simp only [decode, bind_eq_ok_iff, mapError_eq_ok_iff, Prod.exists,
    parts_eq_ok_iff, pure_eq_ok, Except.ok.injEq, CoseSign1.mk.injEq]
  constructor
  · intro h
    obtain ⟨value, hValue, header, payload, signature, rfl, kid, contentType,
      hHeader, rfl, rfl, rfl, rfl, rfl⟩ := h
    exact ⟨hValue, hHeader⟩
  · intro h
    exact ⟨_, h.1, header, payload, signature, rfl, kid, contentType, h.2, rfl,
      rfl, rfl, rfl, rfl⟩

theorem encode_eq_ok_iff {cose : CoseSign1} {output : Bytes} :
    cose.encode = .ok output ↔
      Protocol.decode output =
        .ok (envelope cose.header cose.payload cose.signature.val) ∧
      protectedBytes cose.kid cose.contentType = .ok cose.header := by
  simp only [encode, bind_eq_ok_iff, rejectIf_eq_ok_iff, not_not,
    mapError_eq_ok_iff, exists_const, encode_eq_ok_iff_decode]
  constructor
  · intro h
    obtain ⟨header, hHeader, rfl, hDecode⟩ := h
    exact ⟨hDecode, hHeader⟩
  · intro h
    exact ⟨cose.header, h.2, rfl, h.1⟩

/-- Decoding and encoding are inverse to each other: the header that decoding
keeps is the one that encoding derives again. -/
theorem decode_eq_ok_iff_encode {input : Bytes} {cose : CoseSign1} :
    decode input = .ok cose ↔ cose.encode = .ok input := by
  rw [decode_eq_ok_iff, encode_eq_ok_iff, protectedBytes_eq_ok_iff_parseProtected]

/-- The codec of envelopes: what is decoded encodes to the same bytes, what is
signed and encoded is read back with its header, an accepted header is the one
written for its fields, and the fields and the signature have one wire form. -/
theorem wireForm_unique [Cryptography] :
    (∀ (input : Bytes) (cose : CoseSign1),
      decode input = .ok cose → cose.encode = .ok input) ∧
    (∀ (payload kid : Bytes) (contentType : UInt64) (domain : Domain)
      (signingKey : ByteArr 32) (cose : CoseSign1) (output : Bytes),
      sign payload kid contentType domain signingKey = .ok cose →
      cose.encode = .ok output → decode output = .ok cose) ∧
    (∀ (header kid : Bytes) (contentType : UInt64),
      parseProtected header = .ok (kid, contentType) →
      protectedBytes kid contentType = .ok header) ∧
    (∀ (input : Bytes) (cose : CoseSign1), decode input = .ok cose →
      protectedBytes cose.kid cose.contentType = .ok cose.header) ∧
    ∀ (input input' : Bytes) (cose cose' : CoseSign1),
      decode input = .ok cose → decode input' = .ok cose' →
      cose.kid = cose'.kid → cose.contentType = cose'.contentType →
      cose.payload = cose'.payload → cose.signature = cose'.signature →
      input = input' := by
  have hHeader : ∀ (input : Bytes) (cose : CoseSign1), decode input = .ok cose →
      protectedBytes cose.kid cose.contentType = .ok cose.header :=
    fun input cose h => protectedBytes_parseProtected (decode_eq_ok_iff.mp h).2
  refine ⟨?_, ?_, ?_, hHeader, ?_⟩
  · intro input cose h
    exact decode_eq_ok_iff_encode.mp h
  · intro payload kid contentType domain signingKey cose output _ hEncode
    exact decode_eq_ok_iff_encode.mpr hEncode
  · intro header kid contentType h
    exact protectedBytes_parseProtected h
  · intro input input' cose cose' h h' hKid hType hPayload hSignature
    have hSame : cose.header = cose'.header := by
      have hFirst := hHeader input cose h
      rw [hKid, hType, hHeader input' cose' h'] at hFirst
      exact (Except.ok.inj hFirst).symm
    have hCose : cose = cose' := by
      cases cose
      cases cose'
      simp_all
    have hFirst := decode_eq_ok_iff_encode.mp h
    rw [hCose, decode_eq_ok_iff_encode.mp h'] at hFirst
    exact (Except.ok.inj hFirst).symm

theorem verify_eq_ok_iff [Cryptography] {cose : CoseSign1}
    {key : VerificationKey} {policy : VerificationPolicy} {result : Unit} :
    cose.verify key policy = .ok result ↔
      cose.contentType = policy.contentType ∧ cose.kid = key.kid ∧
      policy.requiredRole ∈ key.roles ∧
      (key.notBeforeUtc ≤ policy.nowUtc ∧ policy.nowUtc < key.notAfterUtc) ∧
      ∃ message,
        signatureStructure cose.header policy.domain cose.payload = .ok message ∧
        Cryptography.verify key.publicKey message cose.signature = true := by
  simp only [verify, VerificationKey.permits, bind_eq_ok_iff,
    rejectIf_eq_ok_iff, not_not, exists_const, not_or, ge_iff_le, Int64.not_lt,
    Int64.not_le, Bool.not_eq_false, and_assoc]

/-- A signed envelope verifies under the public key of its seed. -/
theorem verify_sign [Cryptography] (hVerifies : VerifiesItsSignatures)
    {payload kid : Bytes} {contentType : UInt64} {domain : Domain}
    {signingKey : ByteArr 32} {cose : CoseSign1}
    (h : sign payload kid contentType domain signingKey = .ok cose)
    {key : VerificationKey} (hKid : key.kid = kid)
    (hPublic : key.publicKey = verifyingKey signingKey)
    {policy : VerificationPolicy} (hType : policy.contentType = contentType)
    (hDomain : policy.domain = domain) (hRole : policy.requiredRole ∈ key.roles)
    (hTime : key.notBeforeUtc ≤ policy.nowUtc ∧ policy.nowUtc < key.notAfterUtc) :
    cose.verify key policy = .ok () := by
  obtain ⟨header, message, hHeader, hMessage, rfl⟩ := sign_eq_ok_iff.mp h
  refine verify_eq_ok_iff.mpr ⟨hType.symm, hKid.symm, hRole, hTime, message, ?_, ?_⟩
  · rw [hDomain]
    exact hMessage
  · rw [hPublic]
    exact hVerifies signingKey message

end CoseSign1

/-! ### Soundness of verification -/

/-- One call of `CoseSign1::sign`. -/
structure SignCall where
  payload : Bytes
  kid : Bytes
  contentType : UInt64
  domain : Domain
  signingKey : ByteArr 32
  deriving DecidableEq, Repr

namespace SignCall

/-- The byte string signed by a call, if the call gets that far. -/
def message (call : SignCall) : Except CoseError Bytes := do
  let header ← protectedBytes call.kid call.contentType
  signatureStructure header call.domain call.payload

theorem message_eq_ok_iff {call : SignCall} {message : Bytes} :
    call.message = .ok message ↔
      ∃ header, protectedBytes call.kid call.contentType = .ok header ∧
        signatureStructure header call.domain call.payload = .ok message := by
  rw [SignCall.message, bind_eq_ok_iff]

/-- The signed bytes determine what was signed, and for whom. -/
theorem message_inj {call other : SignCall} {message : Bytes}
    (h : call.message = .ok message) (h' : other.message = .ok message) :
    call.payload = other.payload ∧ call.kid = other.kid ∧
      call.contentType = other.contentType ∧ call.domain = other.domain := by
  obtain ⟨header, hHeader, hMessage⟩ := message_eq_ok_iff.mp h
  obtain ⟨header', hHeader', hMessage'⟩ := message_eq_ok_iff.mp h'
  obtain ⟨rfl, hDomain, hPayload⟩ := signatureStructure_inj hMessage hMessage'
  have hFields := (parseProtected_protectedBytes hHeader).symm.trans
    (parseProtected_protectedBytes hHeader')
  simp only [Except.ok.injEq, Prod.mk.injEq] at hFields
  exact ⟨hPayload, hFields.1, hFields.2, hDomain⟩

end SignCall

/-- Ideal signatures under a public key: a byte string is accepted only if one of
the calls signed exactly that byte string with the matching key. -/
def AcceptsOnlySigned [Cryptography] (calls : Set SignCall)
    (publicKey : ByteArr 32) : Prop :=
  ∀ message signature, Cryptography.verify publicKey message signature = true →
    ∃ call ∈ calls, verifyingKey call.signingKey = publicKey ∧
      call.message = .ok message

/-- An envelope that decodes and verifies was made by a call with the same
payload and key ID and with the content type and domain of the policy; and no
two calls that differ in one of these sign the same bytes. -/
theorem verify_sound [Cryptography] {calls : Set SignCall}
    {key : VerificationKey} (hIdeal : AcceptsOnlySigned calls key.publicKey) :
    (∀ (input : Bytes) (policy : VerificationPolicy) (cose : CoseSign1),
      CoseSign1.decode input = .ok cose → cose.verify key policy = .ok () →
      (∃ call ∈ calls, verifyingKey call.signingKey = key.publicKey ∧
        call.payload = cose.payload ∧ call.kid = cose.kid ∧
        call.contentType = policy.contentType ∧ call.domain = policy.domain) ∧
      key.kid = cose.kid ∧ policy.requiredRole ∈ key.roles ∧
      key.notBeforeUtc ≤ policy.nowUtc ∧ policy.nowUtc < key.notAfterUtc) ∧
    (∀ (call other : SignCall) (message : Bytes),
      call.message = .ok message → other.message = .ok message →
      call.payload = other.payload ∧ call.kid = other.kid ∧
        call.contentType = other.contentType ∧ call.domain = other.domain) := by
  refine ⟨?_, fun call other message h h' => SignCall.message_inj h h'⟩
  intro input policy cose hDecode hVerify
  obtain ⟨hType, hKid, hRole, ⟨hAfter, hBefore⟩, message, hMessage, hAccepted⟩ :=
    CoseSign1.verify_eq_ok_iff.mp hVerify
  refine ⟨?_, hKid.symm, hRole, hAfter, hBefore⟩
  obtain ⟨call, hCall, hKey, hSigned⟩ :=
    hIdeal message cose.signature hAccepted
  obtain ⟨header, hHeader, hStructure⟩ := SignCall.message_eq_ok_iff.mp hSigned
  obtain ⟨rfl, hDomain, hPayload⟩ := signatureStructure_inj hStructure hMessage
  -- The header that was checked is the one that was signed.
  have hFields := (parseProtected_protectedBytes hHeader).symm.trans
    (CoseSign1.decode_eq_ok_iff.mp hDecode).2
  simp only [Except.ok.injEq, Prod.mk.injEq] at hFields
  exact ⟨call, hCall, hKey, hPayload, hFields.1, hFields.2.trans hType, hDomain⟩

/-- A request payload signed under one key. -/
def sampleCall : SignCall where
  payload := utf8 "payload"
  kid := utf8 "broker-key"
  contentType := 1
  domain := .request
  signingKey := ByteArr.fill 32 7

def sampleKey : VerificationKey where
  kid := sampleCall.kid
  publicKey := sampleCall.signingKey
  notBeforeUtc := 0
  notAfterUtc := 100
  roles := [.broker]

def samplePolicy : VerificationPolicy where
  contentType := 1
  domain := .request
  requiredRole := .broker
  nowUtc := 50

/-- Ideal signatures with a single call: nothing else is accepted. -/
abbrev singleCallCryptography : Cryptography :=
  { keyedHashCryptography with
    verify := fun key message signature =>
      decide (key = sampleCall.signingKey ∧ sampleCall.message = .ok message ∧
        signature = keyedHash key message) }

theorem singleCallCryptography_ideal :
    @AcceptsOnlySigned singleCallCryptography {sampleCall}
      sampleKey.publicKey := by
  intro message signature h
  have hAccepted := of_decide_eq_true h
  exact ⟨sampleCall, rfl, rfl, hAccepted.2.1⟩

/-- The envelope of that call, as it is sent. -/
def sampleEnvelope : Except CoseError Bytes := do
  let cose ← @CoseSign1.sign singleCallCryptography sampleCall.payload
    sampleCall.kid sampleCall.contentType sampleCall.domain sampleCall.signingKey
  cose.encode

/-- The envelope of the single call decodes and verifies, and is traced back to
that call. -/
theorem verify_sound_sample :
    ∃ input cose, sampleEnvelope = .ok input ∧
      CoseSign1.decode input = .ok cose ∧
      @CoseSign1.verify singleCallCryptography cose sampleKey samplePolicy = .ok () ∧
      ∃ call ∈ ({sampleCall} : Set SignCall), call.payload = cose.payload ∧
        call.domain = samplePolicy.domain := by
  let _ : Cryptography := singleCallCryptography
  have hOk : sampleEnvelope.isOk = true := by decide +kernel
  cases hInput : sampleEnvelope with
  | error fault =>
      rw [hInput] at hOk
      cases hOk
  | ok input =>
      obtain ⟨cose, hSign, hEncode⟩ := bind_eq_ok_iff.mp hInput
      have hDecode := CoseSign1.decode_eq_ok_iff_encode.mpr hEncode
      obtain ⟨header, message, hHeader, hMessage, hCose⟩ :=
        CoseSign1.sign_eq_ok_iff.mp hSign
      have hCall : sampleCall.message = .ok message :=
        SignCall.message_eq_ok_iff.mpr ⟨header, hHeader, hMessage⟩
      have hAccepted : Cryptography.verify sampleKey.publicKey message
          (Cryptography.sign sampleCall.signingKey message) = true :=
        decide_eq_true ⟨rfl, hCall, rfl⟩
      have hVerify : cose.verify sampleKey samplePolicy = .ok () := by
        rw [CoseSign1.verify_eq_ok_iff, hCose]
        exact ⟨rfl, rfl, by decide, by decide, message, hMessage, hAccepted⟩
      obtain ⟨⟨call, hMem, -, hPayload, -, -, hDomain⟩, -⟩ :=
        (verify_sound singleCallCryptography_ideal).1 input samplePolicy cose
          hDecode hVerify
      exact ⟨input, cose, rfl, hDecode, hVerify, call, hMem, hPayload, hDomain⟩

end Protocol
end RootPermit
