import RootPermit.Protocol.SchemaRoundTrip
import RootPermit.Rpc.Message

/-!
# Packets and messages of the local RPC correspond

* `fromCbor_eq_ok_iff` — a value is read as a message exactly when its fields are
  the entries of that message;
* `decodeFrame_eq_ok_iff`, `encodeFrame_eq_ok_iff` — a packet is the length of a
  payload followed by that payload;
* `encodeFrame_of_decodeFrame`, `decodeFrame_of_encodeFrame` — the two directions;
* `frames_bijective` — packets and messages correspond, and the prefix of a packet
  determines its length.
-/

namespace RootPermit
namespace Rpc

open Foundation Protocol

/-! ### Tables -/

/-- The table of a message is built as that of a protocol schema. -/
theorem insertFields_eq_ok_iff {entries : List (CborValue × CborValue)}
    {start final : Fields} :
    insertFields entries start = .ok final ↔
      Protocol.insertFields entries start = .ok final := by
  induction entries generalizing start with
  | nil => simp [insertFields, Protocol.insertFields]
  | cons entry rest ih =>
      obtain ⟨key, value⟩ := entry
      cases key with
      | unsigned key =>
          simp only [insertFields, Protocol.insertFields, bind_eq_ok_iff,
            rejectIf_eq_ok_iff, exists_const, ih]
      | _ => simp [insertFields, Protocol.insertFields]

theorem fields_eq_ok_iff {value : CborValue} {table : Fields} :
    fields value = .ok table ↔ Protocol.fields value = .ok table := by
  cases value with
  | map entries => exact insertFields_eq_ok_iff
  | _ => simp [fields, Protocol.fields]

theorem rejectUnknown_eq_ok_iff {table : Fields} {known : List UInt64}
    {result : Unit} :
    rejectUnknown table known = .ok result ↔ ∀ key ∈ table, key ∈ known := by
  rw [← @Protocol.rejectUnknown_eq_ok_iff table known (), rejectUnknown,
    Protocol.rejectUnknown]
  cases (table.keys.insertionSort (· ≤ ·)).find? fun key => !known.contains key with
  | none => simp
  | some key => simp

/-- A table holds a list of entries when each entry is found and there are no
others. -/
theorem holds_iff {table : Fields} {entries : List (UInt64 × CborValue)} :
    Holds table entries ↔
      (∀ entry ∈ entries, table.lookup entry.1 = some entry.2) ∧
        ∀ key ∈ table, key ∈ entries.map Prod.fst := by
  constructor
  · intro h
    exact ⟨fun entry hEntry => (h entry.1 entry.2).mpr hEntry,
      fun key hKey => h.mem_iff.mp hKey⟩
  · intro h key value
    obtain ⟨hFound, hKnown⟩ := h
    constructor
    · intro hValue
      have hKey : key ∈ table := by
        rw [← AList.lookup_isSome, hValue]
        rfl
      obtain ⟨entry, hEntry, rfl⟩ := List.mem_map.mp (hKnown key hKey)
      rw [hFound entry hEntry, Option.some.injEq] at hValue
      rw [← hValue]
      exact hEntry
    · intro hEntry
      exact hFound (key, value) hEntry

/-! ### Readers -/

theorem required_eq_ok_iff {key : UInt64} {table rest : Fields} {value : CborValue} :
    required key table = .ok (value, rest) ↔
      table.lookup key = some value ∧ table.erase key = rest := by
  unfold required
  cases table.lookup key with
  | none => simp
  | some found => simp

theorem requiredAs_eq_ok_iff {α : Type} {key : UInt64}
    {convert : CborValue → Except RpcError α} {table rest : Fields} {content : α} :
    requiredAs key convert table = .ok (content, rest) ↔
      ∃ value, table.lookup key = some value ∧ convert value = .ok content ∧
        table.erase key = rest := by
  simp only [requiredAs, bind_eq_ok_iff, Prod.exists, required_eq_ok_iff, pure_eq_ok,
    Except.ok.injEq, Prod.mk.injEq]
  constructor
  · intro h
    obtain ⟨value, _, ⟨hValue, rfl⟩, _, hConvert, rfl, rfl⟩ := h
    exact ⟨value, hValue, hConvert, rfl⟩
  · intro h
    obtain ⟨value, hValue, hConvert, rfl⟩ := h
    exact ⟨value, _, ⟨hValue, rfl⟩, content, hConvert, rfl, rfl⟩

theorem check_eq_ok_iff {α : Type} {result : Except RpcError α} {table rest : Fields}
    {content : α} :
    check result table = .ok (content, rest) ↔ result = .ok content ∧ table = rest := by
  rw [check, map_eq_ok_iff]
  simp only [Prod.mk.injEq]
  constructor
  · intro h
    obtain ⟨_, hResult, rfl, rfl⟩ := h
    exact ⟨hResult, rfl⟩
  · intro h
    obtain ⟨hResult, rfl⟩ := h
    exact ⟨content, hResult, rfl, rfl⟩

theorem asUnsigned_eq_ok_iff {key : UInt64} {value : CborValue} {content : UInt64} :
    asUnsigned key value = .ok content ↔ value = .unsigned content := by
  cases value <;> simp [asUnsigned]

theorem asBytes_eq_ok_iff {key : UInt64} {length : Nat} {value : CborValue}
    {content : Bytes} :
    asBytes key length value = .ok content ↔
      value = .bytes content ∧ content.length = length := by
  cases value with
  | bytes found =>
      by_cases hLength : found.length = length
      · simp only [asBytes, if_pos hLength, Except.ok.injEq, CborValue.bytes.injEq]
        constructor
        · rintro rfl
          exact ⟨rfl, hLength⟩
        · exact And.left
      · simp only [asBytes, if_neg hLength, CborValue.bytes.injEq]
        constructor
        · intro h
          cases h
        · rintro ⟨rfl, hFound⟩
          exact absurd hFound hLength
  | _ => simp [asBytes]

theorem asText_eq_ok_iff {key : UInt64} {maximum : Nat} {value : CborValue}
    {content : String} :
    asText key maximum value = .ok content ↔
      value = .text content ∧ (utf8 content).length ≤ maximum := by
  cases value with
  | text found =>
      by_cases hBound : (utf8 found).length ≤ maximum
      · simp only [asText, if_pos hBound, Except.ok.injEq, CborValue.text.injEq]
        constructor
        · rintro rfl
          exact ⟨rfl, hBound⟩
        · exact And.left
      · simp only [asText, if_neg hBound, CborValue.text.injEq]
        constructor
        · intro h
          cases h
        · rintro ⟨rfl, hFound⟩
          exact absurd hFound hBound
  | _ => simp [asText]

theorem asBool_eq_ok_iff {key : UInt64} {value : CborValue} {content : Bool} :
    asBool key value = .ok content ↔ value = .bool content := by
  cases value <;> simp [asBool]

theorem requiredUnsignedRef_eq_ok_iff {table : Fields} {key content : UInt64} :
    requiredUnsignedRef table key = .ok content ↔
      table.lookup key = some (.unsigned content) := by
  unfold requiredUnsignedRef
  cases table.lookup key with
  | none => simp
  | some value => simp [asUnsigned_eq_ok_iff]

/-! ### Codes -/

theorem Method.fromCode_eq_ok_iff {value : UInt64} {method : Method} :
    Method.fromCode value = .ok method ↔ value = method.code := by
  constructor
  · intro h
    unfold Method.fromCode at h
    split at h <;> cases h <;> rfl
  · rintro rfl
    cases method <;> rfl

theorem MessageKind.fromCode_eq_ok_iff {value : UInt64} {kind : MessageKind} :
    MessageKind.fromCode value = .ok kind ↔ value = kind.code := by
  constructor
  · intro h
    unfold MessageKind.fromCode at h
    split at h <;> cases h <;> rfl
  · rintro rfl
    cases kind <;> rfl

/-- The texts of the error codes are parsed back, and no other text is. -/
theorem ErrorCode.parse_eq_ok_iff {value : String} {code : ErrorCode} :
    ErrorCode.parse value = .ok code ↔ value = code.text := by
  constructor
  · intro h
    unfold ErrorCode.parse at h
    split at h <;> cases h <;> rfl
  · rintro rfl
    cases code <;> rfl

/-- Every error text is within the bound of its field. -/
theorem ErrorCode.length_text (code : ErrorCode) : (utf8 code.text).length ≤ 64 := by
  cases code <;> decide +kernel

theorem validateBody_eq_ok_iff {value : CborValue} {key : UInt64} {result : Unit} :
    validateBody value key = .ok result ↔ value.isMap = true := by
  rw [validateBody, rejectIf_eq_ok_iff, Bool.not_eq_true', Bool.not_eq_false]

/-! ### The fields of a message -/

/-- The four fields that every message of a kind has. -/
def HasEnvelope (kind : MessageKind) (correlationId : CorrelationId)
    (method : Method) (table : Fields) : Prop :=
  table.lookup 1 = some (.unsigned VERSION) ∧
    table.lookup 2 = some (.unsigned kind.code) ∧
    table.lookup 3 = some (.bytes correlationId.asBytes.val) ∧
    table.lookup 4 = some (.unsigned method.code)

theorem commonFields_eq_ok_iff {kind : MessageKind} {correlationId : CorrelationId}
    {method : Method} {table rest : Fields} :
    commonFields kind table = .ok ((correlationId, method), rest) ↔
      HasEnvelope kind correlationId method table ∧
        (((table.erase 1).erase 2).erase 3).erase 4 = rest := by
  obtain ⟨id⟩ := correlationId
  simp (disch := decide) only [commonFields, requiredUnsigned, requiredBytes,
    run_bind_eq_ok_iff, run_pure_eq_ok_iff, requiredAs_eq_ok_iff, check_eq_ok_iff,
    rejectIf_eq_ok_iff, orFault_eq_ok_iff, asUnsigned_eq_ok_iff, asBytes_eq_ok_iff,
    MessageKind.fromCode_eq_ok_iff, Method.fromCode_eq_ok_iff,
    ByteArr.ofBytes?_eq_some_iff, not_not, Prod.mk.injEq,
    CorrelationId.mk.injEq, HasEnvelope]
  constructor
  · intro h
    obtain ⟨_, _, ⟨_, hVersion, rfl, rfl⟩, _, _, ⟨rfl, rfl⟩, _, _,
      ⟨_, hKind, rfl, rfl⟩, _, _, ⟨rfl, rfl⟩, _, _, ⟨rfl, rfl⟩, _, _,
      ⟨_, hId, ⟨rfl, -⟩, rfl⟩, _, _, ⟨rfl, rfl⟩, _, _, ⟨_, hMethod, rfl, rfl⟩,
      _, _, ⟨rfl, rfl⟩, ⟨rfl, rfl⟩, rfl⟩ := h
    simp (disch := decide) only [AList.lookup_erase_ne] at hKind hId hMethod
    exact ⟨⟨hVersion, hKind, hId, hMethod⟩, rfl⟩
  · intro h
    obtain ⟨⟨hVersion, hKind, hId, hMethod⟩, rfl⟩ := h
    have hKind' : (table.erase 1).lookup 2 = some (.unsigned kind.code) := by
      simpa (disch := decide) only [AList.lookup_erase_ne] using hKind
    have hId' : ((table.erase 1).erase 2).lookup 3 = some (.bytes id.val) := by
      simpa (disch := decide) only [AList.lookup_erase_ne] using hId
    have hMethod' : (((table.erase 1).erase 2).erase 3).lookup 4 =
        some (.unsigned method.code) := by
      simpa (disch := decide) only [AList.lookup_erase_ne] using hMethod
    exact ⟨VERSION, _, ⟨_, hVersion, rfl, rfl⟩, (), _, ⟨rfl, rfl⟩, kind.code, _,
      ⟨_, hKind', rfl, rfl⟩, kind, _, ⟨rfl, rfl⟩, (), _, ⟨rfl, rfl⟩, id.val, _,
      ⟨_, hId', ⟨rfl, id.property⟩, rfl⟩, id, _, ⟨rfl, rfl⟩, method.code, _,
      ⟨_, hMethod', rfl, rfl⟩, method, _, ⟨rfl, rfl⟩, ⟨rfl, rfl⟩, rfl⟩

/-- A table holds an envelope with further entries when it has the four fields, the
further ones, and no others. -/
theorem holds_envelope_iff {kind : MessageKind} {correlationId : CorrelationId}
    {method : Method} {more : List (UInt64 × CborValue)} {table : Fields} :
    Holds table (envelopeEntries kind correlationId method ++ more) ↔
      HasEnvelope kind correlationId method table ∧
        (∀ entry ∈ more, table.lookup entry.1 = some entry.2) ∧
        ∀ key ∈ table, key ∈ [1, 2, 3, 4] ++ more.map Prod.fst := by
  have hEnvelope : HasEnvelope kind correlationId method table ↔
      ∀ entry ∈ envelopeEntries kind correlationId method,
        table.lookup entry.1 = some entry.2 := by
    simp [HasEnvelope, envelopeEntries]
  have hKeys : (envelopeEntries kind correlationId method ++ more).map Prod.fst =
      [1, 2, 3, 4] ++ more.map Prod.fst := by
    rw [List.map_append]
    rfl
  rw [holds_iff, hKeys, hEnvelope, List.forall_mem_append, and_assoc]

theorem fromFieldsWith_eq_ok_iff {T : Type} {known : List UInt64}
    {read : FieldReader T} {table : Fields} {message : T} :
    fromFieldsWith known read table = .ok message ↔
      (∀ key ∈ table, key ∈ known) ∧ ∃ rest, read table = .ok (message, rest) := by
  simp only [fromFieldsWith, bind_eq_ok_iff, rejectUnknown_eq_ok_iff, exists_const,
    Prod.exists, pure_eq_ok, Except.ok.injEq]
  constructor
  · intro h
    obtain ⟨hKnown, _, rest, hRead, rfl⟩ := h
    exact ⟨hKnown, rest, hRead⟩
  · intro h
    obtain ⟨hKnown, rest, hRead⟩ := h
    exact ⟨hKnown, message, rest, hRead, rfl⟩

theorem readBody_eq_ok_iff {T : Type} {kind : MessageKind}
    {new : CorrelationId → Method → CborValue → Except RpcError T} {table : Fields}
    {message : T} :
    (∃ rest, readBody kind new table = .ok (message, rest)) ↔
      ∃ correlationId method body, HasEnvelope kind correlationId method table ∧
        table.lookup 5 = some body ∧ new correlationId method body = .ok message := by
  simp only [readBody, run_bind_eq_ok_iff, Prod.exists, commonFields_eq_ok_iff,
    required_eq_ok_iff, check_eq_ok_iff]
  constructor
  · intro h
    obtain ⟨_, correlationId, method, _, ⟨hEnvelope, rfl⟩, body, _, ⟨hBody, rfl⟩,
      hNew, rfl⟩ := h
    simp (disch := decide) only [AList.lookup_erase_ne] at hBody
    exact ⟨correlationId, method, body, hEnvelope, hBody, hNew⟩
  · intro h
    obtain ⟨correlationId, method, body, hEnvelope, hBody, hNew⟩ := h
    refine ⟨_, correlationId, method, _, ⟨hEnvelope, rfl⟩, body, _, ⟨?_, rfl⟩, hNew,
      rfl⟩
    simpa (disch := decide) only [AList.lookup_erase_ne] using hBody

/-- A message with a body is read from its own entries. -/
theorem fromFieldsWith_readBody_eq_ok_iff {T : Type} {kind : MessageKind}
    {new : CorrelationId → Method → CborValue → Except RpcError T} {table : Fields}
    {message : T} {correlationId : CorrelationId} {method : Method} {body : CborValue}
    (hNew : ∀ id other value, new id other value = .ok message ↔
      value.isMap = true ∧ id = correlationId ∧ other = method ∧ value = body) :
    fromFieldsWith [1, 2, 3, 4, 5] (readBody kind new) table = .ok message ↔
      Holds table (envelope kind correlationId method body) ∧ body.isMap = true := by
  rw [envelope, holds_envelope_iff, fromFieldsWith_eq_ok_iff, readBody_eq_ok_iff,
    List.forall_mem_singleton]
  simp only [hNew]
  constructor
  · intro h
    obtain ⟨hKnown, _, _, _, hEnvelope, hBody, hMap, rfl, rfl, rfl⟩ := h
    exact ⟨⟨hEnvelope, hBody, hKnown⟩, hMap⟩
  · intro h
    obtain ⟨⟨hEnvelope, hBody, hKnown⟩, hMap⟩ := h
    exact ⟨hKnown, _, _, _, hEnvelope, hBody, hMap, rfl, rfl, rfl⟩

theorem RpcRequest.fromFields_eq_ok_iff {message : RpcRequest} {table : Fields} :
    RpcRequest.fromFields table = .ok message ↔
      Holds table message.entries ∧ message.body.isMap = true := by
  apply fromFieldsWith_readBody_eq_ok_iff
  intro correlationId method body
  cases message
  simp [RpcRequest.new, bind_eq_ok_iff, validateBody_eq_ok_iff, pure_eq_ok]

theorem RpcResponse.fromFields_eq_ok_iff {message : RpcResponse} {table : Fields} :
    RpcResponse.fromFields table = .ok message ↔
      Holds table message.entries ∧ message.body.isMap = true := by
  apply fromFieldsWith_readBody_eq_ok_iff
  intro correlationId method body
  cases message
  simp [RpcResponse.new, bind_eq_ok_iff, validateBody_eq_ok_iff, pure_eq_ok]

/-- The details of a failure are a map, if it has any. -/
theorem validateDetails_eq_ok_iff {details : Option CborValue} {result : Unit} :
    RpcFailure.validateDetails details = .ok result ↔
      ∀ value ∈ details, value.isMap = true := by
  cases details with
  | none => simp [RpcFailure.validateDetails]
  | some details => simp [RpcFailure.validateDetails, validateBody_eq_ok_iff]

/-- The reads of a failure after its envelope. -/
theorem RpcFailure.read_eq_ok_iff {message : RpcFailure} {table : Fields} :
    (∃ rest, RpcFailure.read table = .ok (message, rest)) ↔
      HasEnvelope .error message.correlationId message.method table ∧
        table.lookup 5 = some (.text message.code.text) ∧
        table.lookup 6 = some (.bool message.retryable) ∧
        table.lookup 7 = message.details ∧
        ∀ value ∈ message.details, value.isMap = true := by
  simp only [RpcFailure.read, run_bind_eq_ok_iff, run_pure_eq_ok_iff, Prod.exists,
    commonFields_eq_ok_iff, requiredText, requiredBool, requiredAs_eq_ok_iff,
    asText_eq_ok_iff, asBool_eq_ok_iff, check_eq_ok_iff, removeField,
    ErrorCode.parse_eq_ok_iff, validateDetails_eq_ok_iff, Except.ok.injEq,
    Prod.mk.injEq]
  constructor
  · intro h
    obtain ⟨_, _, _, _, ⟨hEnvelope, rfl⟩, _, _, ⟨_, hCode, ⟨rfl, -⟩, rfl⟩, code, _,
      ⟨rfl, rfl⟩, _, _, ⟨_, hRetryable, rfl, rfl⟩, _, _, ⟨hDetails, rfl⟩, _, _,
      ⟨hMap, rfl⟩, rfl, -⟩ := h
    simp (disch := decide) only [AList.lookup_erase_ne] at hCode hRetryable hDetails
    exact ⟨hEnvelope, hCode, hRetryable, hDetails, hMap⟩
  · intro h
    obtain ⟨hEnvelope, hCode, hRetryable, hDetails, hMap⟩ := h
    refine ⟨_, message.correlationId, message.method, _, ⟨hEnvelope, rfl⟩,
      message.code.text, _, ⟨_, ?_, ⟨rfl, message.code.length_text⟩, rfl⟩,
      message.code, _, ⟨rfl, rfl⟩, message.retryable, _, ⟨_, ?_, rfl, rfl⟩,
      message.details, _, ⟨?_, rfl⟩, (), _, ⟨hMap, rfl⟩, rfl, rfl⟩
    · simpa (disch := decide) only [AList.lookup_erase_ne] using hCode
    · simpa (disch := decide) only [AList.lookup_erase_ne] using hRetryable
    · simpa (disch := decide) only [AList.lookup_erase_ne] using hDetails

/-- The optional field 7 is in the table exactly when there are details. -/
theorem forall_optionalEntry_iff {key : UInt64} {value : Option CborValue}
    {table : Fields} {known : List UInt64} (hKey : key ∉ known) :
    ((∀ entry ∈ optionalEntry key value, table.lookup entry.1 = some entry.2) ∧
      ∀ other ∈ table, other ∈ known ++ (optionalEntry key value).map Prod.fst) ↔
    table.lookup key = value ∧ ∀ other ∈ table, other ∈ known ++ [key] := by
  cases value with
  | some value => simp [optionalEntry]
  | none =>
      simp only [optionalEntry, List.not_mem_nil, false_implies, implies_true,
        List.map_nil, List.append_nil, true_and, AList.lookup_eq_none]
      constructor
      · intro h
        exact ⟨fun hMem => hKey (h key hMem),
          fun other hOther => List.mem_append_left _ (h other hOther)⟩
      · intro h other hOther
        rcases List.mem_append.mp (h.2 other hOther) with hKnown | hSame
        · exact hKnown
        · rw [List.mem_singleton.mp hSame] at hOther
          exact absurd hOther h.1

theorem RpcFailure.fromFields_eq_ok_iff {message : RpcFailure} {table : Fields} :
    RpcFailure.fromFields table = .ok message ↔
      Holds table message.entries ∧
        ∀ value ∈ message.details, value.isMap = true := by
  have hDetails := @forall_optionalEntry_iff 7 message.details table
    [1, 2, 3, 4, 5, 6] (by decide)
  have hKeys : [1, 2, 3, 4] ++ ([((5 : UInt64), CborValue.text message.code.text),
      (6, .bool message.retryable)] ++ optionalEntry 7 message.details).map Prod.fst =
      [1, 2, 3, 4, 5, 6] ++ (optionalEntry 7 message.details).map Prod.fst := rfl
  rw [RpcFailure.entries, List.append_assoc, holds_envelope_iff, hKeys,
    RpcFailure.fromFields, fromFieldsWith_eq_ok_iff, RpcFailure.read_eq_ok_iff,
    List.forall_mem_append, List.forall_mem_cons, List.forall_mem_singleton]
  constructor
  · intro h
    obtain ⟨hKnown, hEnvelope, hCode, hRetryable, hSeven, hMap⟩ := h
    obtain ⟨hFound, hOnly⟩ := hDetails.mpr ⟨hSeven, hKnown⟩
    exact ⟨⟨hEnvelope, ⟨⟨hCode, hRetryable⟩, hFound⟩, hOnly⟩, hMap⟩
  · intro h
    obtain ⟨⟨hEnvelope, ⟨⟨hCode, hRetryable⟩, hFound⟩, hOnly⟩, hMap⟩ := h
    obtain ⟨hSeven, hKnown⟩ := hDetails.mp ⟨hFound, hOnly⟩
    exact ⟨hKnown, hEnvelope, hCode, hRetryable, hSeven, hMap⟩

/-! ### Values and messages -/

namespace RpcMessage

/-- The entries of a message, in the order in which they are pushed. -/
def entries : RpcMessage → List (UInt64 × CborValue)
  | .request message => message.entries
  | .response message => message.entries
  | .failure message => message.entries

/-- The free-form part of a message is a map. -/
def Valid : RpcMessage → Prop
  | .request message => message.body.isMap = true
  | .response message => message.body.isMap = true
  | .failure message => ∀ details ∈ message.details, details.isMap = true

theorem checkedRecord_eq_ok_iff {result : Except RpcError Unit} {valid : Prop}
    (hResult : result = .ok () ↔ valid) {entries : List (UInt64 × CborValue)}
    {value : CborValue} :
    (do result; return record entries) = .ok value ↔
      valid ∧ record entries = value := by
  simp only [bind_eq_ok_iff, pure_eq_ok, Except.ok.injEq, ← hResult, exists_and_right]
  constructor
  · intro h
    obtain ⟨⟨_, hOk⟩, rfl⟩ := h
    exact ⟨hOk, rfl⟩
  · intro h
    obtain ⟨hOk, rfl⟩ := h
    exact ⟨⟨(), hOk⟩, rfl⟩

theorem toCbor_eq_ok_iff {message : RpcMessage} {value : CborValue} :
    message.toCbor = .ok value ↔ message.Valid ∧ record message.entries = value := by
  cases message with
  | request message => exact checkedRecord_eq_ok_iff validateBody_eq_ok_iff
  | response message => exact checkedRecord_eq_ok_iff validateBody_eq_ok_iff
  | failure message => exact checkedRecord_eq_ok_iff validateDetails_eq_ok_iff

def kind : RpcMessage → MessageKind
  | .request _ => .request
  | .response _ => .response
  | .failure _ => .error

/-- Field 2 of a message is the code of its kind. -/
theorem lookup_kind {message : RpcMessage} {table : Fields}
    (h : Holds table message.entries) :
    table.lookup 2 = some (.unsigned message.kind.code) := by
  rw [h]
  cases message with
  | request message => simp [entries, RpcRequest.entries, envelope, envelopeEntries, kind]
  | response message =>
      simp [entries, RpcResponse.entries, envelope, envelopeEntries, kind]
  | failure message => simp [entries, RpcFailure.entries, envelopeEntries, kind]

/-- A value is read as a message exactly when its fields are the entries of that
message. -/
theorem fromCbor_eq_ok_iff {value : CborValue} {message : RpcMessage} :
    fromCbor value = .ok message ↔
      ∃ table, fields value = .ok table ∧ Holds table message.entries ∧
        message.Valid := by
  simp only [fromCbor, bind_eq_ok_iff, requiredUnsignedRef_eq_ok_iff,
    MessageKind.fromCode_eq_ok_iff]
  constructor
  · intro h
    obtain ⟨table, hTable, _, hKind, kind, rfl, hMessage⟩ := h
    refine ⟨table, hTable, ?_⟩
    cases kind with
    | request =>
        obtain ⟨_, hRead, hSame⟩ := bind_eq_ok_iff.mp hMessage
        cases hSame
        exact RpcRequest.fromFields_eq_ok_iff.mp hRead
    | response =>
        obtain ⟨_, hRead, hSame⟩ := bind_eq_ok_iff.mp hMessage
        cases hSame
        exact RpcResponse.fromFields_eq_ok_iff.mp hRead
    | error =>
        obtain ⟨_, hRead, hSame⟩ := bind_eq_ok_iff.mp hMessage
        cases hSame
        exact RpcFailure.fromFields_eq_ok_iff.mp hRead
  · intro h
    obtain ⟨table, hTable, hHolds, hValid⟩ := h
    refine ⟨table, hTable, _, lookup_kind hHolds, message.kind, rfl, ?_⟩
    cases message with
    | request message =>
        have hRead := RpcRequest.fromFields_eq_ok_iff.mpr ⟨hHolds, hValid⟩
        simp only [kind, hRead, ok_bind, pure_eq_ok]
    | response message =>
        have hRead := RpcResponse.fromFields_eq_ok_iff.mpr ⟨hHolds, hValid⟩
        simp only [kind, hRead, ok_bind, pure_eq_ok]
    | failure message =>
        have hRead := RpcFailure.fromFields_eq_ok_iff.mpr ⟨hHolds, hValid⟩
        simp only [kind, hRead, ok_bind, pure_eq_ok]

theorem entries_nodup (message : RpcMessage) :
    (message.entries.map Prod.fst).Nodup := by
  cases message with
  | request message =>
      simp [entries, RpcRequest.entries, envelope, envelopeEntries]
  | response message =>
      simp [entries, RpcResponse.entries, envelope, envelopeEntries]
  | failure message =>
      cases hDetails : message.details <;>
        simp [entries, RpcFailure.entries, envelopeEntries, optionalEntry, hDetails]

/-- A canonical value is read only as the message it is the encoding of. -/
theorem fromCbor_sound {payload : Bytes} {value : CborValue} {message : RpcMessage}
    (hDecode : decode payload = .ok value) (h : fromCbor value = .ok message) :
    message.Valid ∧ encode (record message.entries) = .ok payload := by
  obtain ⟨table, hTable, hHolds, hValid⟩ := fromCbor_eq_ok_iff.mp h
  obtain ⟨found, rfl, hNodup, hFound⟩ :=
    Protocol.fields_eq_ok (fields_eq_ok_iff.mp hTable)
  have hPerm : found.Perm message.entries := by
    refine (List.perm_ext_iff_of_nodup (List.Nodup.of_map _ hNodup)
      (List.Nodup.of_map _ message.entries_nodup)).mpr ?_
    intro entry
    rw [← hFound entry.1 entry.2, hHolds]
  have hNormal : Protocol.normalize (record found) = record found :=
    normalize_eq_self (decode_eq_ok_iff.mp hDecode).2.1
  refine ⟨hValid, encode_eq_ok_iff_decode.mpr ?_⟩
  rw [hDecode, ← Layout.normalize_record_congr_perm hNodup hPerm, hNormal]

/-- The message with the maps of its free-form part in canonical order. -/
def normal : RpcMessage → RpcMessage
  | .request message => .request { message with body := Protocol.normalize message.body }
  | .response message => .response { message with body := Protocol.normalize message.body }
  | .failure message =>
      .failure { message with details := message.details.map Protocol.normalize }

theorem entries_normal (message : RpcMessage) :
    message.normal.entries = normalizeTable message.entries := by
  cases message with
  | request message =>
      simp [normal, entries, RpcRequest.entries, envelope, envelopeEntries,
        normalizeTable, Protocol.normalize]
  | response message =>
      simp [normal, entries, RpcResponse.entries, envelope, envelopeEntries,
        normalizeTable, Protocol.normalize]
  | failure message =>
      cases hDetails : message.details <;>
        simp [normal, entries, RpcFailure.entries, envelopeEntries, optionalEntry,
          normalizeTable, Protocol.normalize, hDetails]

theorem Valid.normal {message : RpcMessage} (h : message.Valid) :
    message.normal.Valid := by
  cases message with
  | request message => exact (isMap_normalize _).trans h
  | response message => exact (isMap_normalize _).trans h
  | failure message =>
      intro details hDetails
      obtain ⟨value, hValue, rfl⟩ := Option.map_eq_some_iff.mp hDetails
      exact (isMap_normalize value).trans (h value hValue)

/-- What travels for a valid message is read as its normal form. -/
theorem fromCbor_normalize {message : RpcMessage} (h : message.Valid) :
    fromCbor (Protocol.normalize (record message.entries)) = .ok message.normal := by
  obtain ⟨sorted, hSorted, hPerm⟩ := Layout.normalize_record message.entries
  rw [← entries_normal] at hPerm
  have hNodup : (sorted.map Prod.fst).Nodup :=
    (hPerm.map Prod.fst).nodup_iff.mpr message.normal.entries_nodup
  obtain ⟨table, hTable, hHolds⟩ := fields_record hNodup
  rw [hSorted, fromCbor_eq_ok_iff]
  exact ⟨table, fields_eq_ok_iff.mpr hTable, hHolds.congr_perm hPerm, h.normal⟩

/-! ### Packets -/

/-- A packet with this payload: its length, then the payload. -/
def Frames (packet payload : Bytes) : Prop :=
  packet = beBytes FRAME_LENGTH_BYTES payload.length ++ payload ∧
    payload.length ≤ MAX_FRAME_PAYLOAD_BYTES

theorem Frames.parts {packet payload : Bytes} (h : Frames packet payload) :
    packet.length = FRAME_LENGTH_BYTES + payload.length ∧
      packet.drop FRAME_LENGTH_BYTES = payload ∧
      beValue (packet.take FRAME_LENGTH_BYTES) = payload.length := by
  obtain ⟨rfl, hBound⟩ := h
  have hLength : (beBytes FRAME_LENGTH_BYTES payload.length).length =
      FRAME_LENGTH_BYTES := length_beBytes _ _
  have hSmall : payload.length < 256 ^ FRAME_LENGTH_BYTES := by
    simp only [MAX_FRAME_PAYLOAD_BYTES, FRAME_LENGTH_BYTES] at hBound ⊢
    omega
  refine ⟨?_, List.drop_left' hLength, ?_⟩
  · rw [List.length_append, hLength]
  · rw [List.take_left' hLength, beValue_beBytes_of_lt hSmall]

theorem decodeFrame_eq_ok_iff {packet : Bytes} {message : RpcMessage} :
    decodeFrame packet = .ok message ↔
      ∃ payload value, Frames packet payload ∧ decode payload = .ok value ∧
        fromCbor value = .ok message := by
  simp only [decodeFrame, bind_eq_ok_iff, rejectIf_eq_ok_iff, mapError_eq_ok_iff,
    exists_const, not_lt, not_not, gt_iff_lt]
  constructor
  · intro h
    obtain ⟨hShort, hBound, hLength, value, hDecode, hMessage⟩ := h
    have hTake : (packet.take FRAME_LENGTH_BYTES).length = FRAME_LENGTH_BYTES := by
      rw [List.length_take]
      omega
    refine ⟨_, value, ⟨?_, ?_⟩, hDecode, hMessage⟩
    · have hPrefix := beBytes_beValue (packet.take FRAME_LENGTH_BYTES)
      rw [hTake, hLength] at hPrefix
      rw [List.length_drop, hPrefix, List.take_append_drop]
    · rw [List.length_drop]
      omega
  · intro h
    obtain ⟨payload, value, hFrames, hDecode, hMessage⟩ := h
    obtain ⟨hLength, hDrop, hPrefix⟩ := hFrames.parts
    have hBound := hFrames.2
    rw [hPrefix, hDrop]
    exact ⟨by omega, hBound, by omega, value, hDecode, hMessage⟩

theorem encodeFrame_eq_ok_iff {packet : Bytes} {message : RpcMessage} :
    message.encodeFrame = .ok packet ↔
      ∃ payload, Frames packet payload ∧ message.Valid ∧
        encode (record message.entries) = .ok payload := by
  simp only [encodeFrame, bind_eq_ok_iff, rejectIf_eq_ok_iff, mapError_eq_ok_iff,
    orFault_eq_ok_iff, toU32?_eq_some_iff, exists_const, toCbor_eq_ok_iff, gt_iff_lt,
    not_lt, pure_eq_ok, Except.ok.injEq]
  constructor
  · intro h
    obtain ⟨_, ⟨hValid, rfl⟩, payload, hEncode, hBound, length, hLength, rfl⟩ := h
    have hNat : length.toNat = payload.length := Int.ofNat.inj hLength
    exact ⟨payload, ⟨by rw [hNat], hBound⟩, hValid, hEncode⟩
  · intro h
    obtain ⟨payload, ⟨rfl, hBound⟩, hValid, hEncode⟩ := h
    have hSmall : payload.length < 2 ^ 32 := by
      simp only [MAX_FRAME_PAYLOAD_BYTES] at hBound
      omega
    have hLength : (UInt32.ofNat payload.length).toNat = payload.length :=
      UInt32.toNat_ofNat_of_lt' hSmall
    exact ⟨_, ⟨hValid, rfl⟩, payload, hEncode, hBound, UInt32.ofNat payload.length,
      by rw [hLength], by rw [hLength]⟩

theorem encodeFrame_of_decodeFrame {packet : Bytes} {message : RpcMessage}
    (h : decodeFrame packet = .ok message) : message.encodeFrame = .ok packet := by
  obtain ⟨payload, value, hFrames, hDecode, hMessage⟩ := decodeFrame_eq_ok_iff.mp h
  exact encodeFrame_eq_ok_iff.mpr ⟨payload, hFrames, fromCbor_sound hDecode hMessage⟩

theorem decodeFrame_of_encodeFrame {packet : Bytes} {message : RpcMessage}
    (h : message.encodeFrame = .ok packet) :
    decodeFrame packet = .ok message.normal := by
  obtain ⟨payload, hFrames, hValid, hEncode⟩ := encodeFrame_eq_ok_iff.mp h
  exact decodeFrame_eq_ok_iff.mpr ⟨payload, _, hFrames,
    encode_eq_ok_iff_decode.mp hEncode, fromCbor_normalize hValid⟩

/-- Two messages that differ at most in the order of the map entries inside their
bodies or details. -/
def SameUpToOrder : RpcMessage → RpcMessage → Prop
  | .request first, .request second =>
      first.correlationId = second.correlationId ∧ first.method = second.method ∧
        Reordered first.body second.body
  | .response first, .response second =>
      first.correlationId = second.correlationId ∧ first.method = second.method ∧
        Reordered first.body second.body
  | .failure first, .failure second =>
      first.correlationId = second.correlationId ∧ first.method = second.method ∧
        first.code = second.code ∧ first.retryable = second.retryable ∧
        Option.Rel Reordered first.details second.details
  | _, _ => False

theorem sameUpToOrder_normal (message : RpcMessage) :
    SameUpToOrder message message.normal := by
  cases message with
  | request message => exact ⟨rfl, rfl, reordered_normalize message.body⟩
  | response message => exact ⟨rfl, rfl, reordered_normalize message.body⟩
  | failure message =>
      refine ⟨rfl, rfl, rfl, rfl, ?_⟩
      cases hDetails : message.details with
      | none => exact Option.Rel.none
      | some details => exact Option.Rel.some (reordered_normalize details)

/-- An accepted packet has the length that its prefix declares. -/
theorem length_of_decodeFrame {packet : Bytes} {message : RpcMessage}
    (h : decodeFrame packet = .ok message) :
    packet.length =
      FRAME_LENGTH_BYTES + beValue (packet.take FRAME_LENGTH_BYTES) := by
  obtain ⟨payload, value, hFrames, -, -⟩ := decodeFrame_eq_ok_iff.mp h
  obtain ⟨hLength, -, hPrefix⟩ := hFrames.parts
  rw [hLength, hPrefix]

end RpcMessage

/-- Packets and messages correspond: what is decoded is encoded as the same packet,
what is encoded is decoded as the message up to the order of map entries, the prefix
of a packet is the number of the bytes after it, and a packet that is cut off or
extended is rejected. -/
theorem frames_bijective :
    (∀ (packet : Bytes) (message : RpcMessage),
      RpcMessage.decodeFrame packet = .ok message →
      message.encodeFrame = .ok packet) ∧
    (∀ (message : RpcMessage) (packet : Bytes), message.encodeFrame = .ok packet →
      (∃ found, RpcMessage.decodeFrame packet = .ok found ∧
        message.SameUpToOrder found) ∧
      packet.length ≤ 65540 ∧ 4 ≤ packet.length ∧
      beValue (packet.take 4) = packet.length - 4) ∧
    ∀ (packet other : Bytes) (message : RpcMessage),
      RpcMessage.decodeFrame packet = .ok message → other ≠ packet →
      other.take 4 = packet.take 4 → other <+: packet ∨ packet <+: other →
      ∀ found, RpcMessage.decodeFrame other ≠ .ok found := by
  refine ⟨?_, ?_, ?_⟩
  · intro packet message h
    exact RpcMessage.encodeFrame_of_decodeFrame h
  · intro message packet h
    obtain ⟨payload, hFrames, -, -⟩ := RpcMessage.encodeFrame_eq_ok_iff.mp h
    obtain ⟨hLength, -, hPrefix⟩ := hFrames.parts
    have hBound := hFrames.2
    simp only [FRAME_LENGTH_BYTES, MAX_FRAME_PAYLOAD_BYTES] at hLength hBound hPrefix
    refine ⟨⟨message.normal, RpcMessage.decodeFrame_of_encodeFrame h,
      message.sameUpToOrder_normal⟩, by omega, by omega, by omega⟩
  · intro packet other message hPacket hOther hPrefix hRelated found hFound
    have hLength := RpcMessage.length_of_decodeFrame hPacket
    have hLength' := RpcMessage.length_of_decodeFrame hFound
    simp only [FRAME_LENGTH_BYTES] at hLength hLength'
    rw [hPrefix] at hLength'
    have hSame : other.length = packet.length := by omega
    rcases hRelated with hCut | hExtended
    · exact hOther (hCut.eq_of_length hSame)
    · exact hOther (hExtended.eq_of_length hSame.symm).symm

end Rpc
end RootPermit
