import RootPermit.Protocol.CborSorting
import RootPermit.Protocol.Cose
import RootPermit.Protocol.SchemaFields

/-!
# Values that are small enough to be encoded

The limits of the profile are far above what a broker signs.  A bound on the depth
and on the length of a value is put together from bounds on its parts, and a bounded
value can be encoded and signed.

* `Small.record`, `Small.array`, `Small.tag` — one level of a value;
* `Small.encode_eq_ok` — a small value can be encoded;
* `CoseSign1.exists_signed` — a payload that fits a byte string can be signed and
  sent.
-/

namespace RootPermit
namespace Protocol

open Foundation

/-- A value that is at most `room` levels deep below its root and takes at most
`size` bytes. -/
structure Small (room size : Nat) (value : CborValue) : Prop where
  profile : ∀ depth, depth + room ≤ CborLimits.default.maxNesting.toNat →
    InProfile .default depth (normalize value)
  length : (referenceEncoding (normalize value)).length ≤ size

theorem length_referenceHead_le (major argument : Nat) :
    (referenceHead major argument).length ≤ 9 := by
  rw [referenceHead, List.length_cons, length_beBytes]
  unfold headWidth
  split_ifs <;> omega

theorem length_referenceItems_le {values : List CborValue} {size : Nat}
    (h : ∀ value ∈ values, (referenceEncoding value).length ≤ size) :
    (referenceItems values).length ≤ values.length * size := by
  induction values with
  | nil => simp [referenceItems]
  | cons value rest ih =>
      obtain ⟨hValue, hRest⟩ := List.forall_mem_cons.mp h
      have hTail := ih hRest
      rw [referenceItems, List.length_append, List.length_cons, Nat.add_mul]
      omega

theorem length_referenceEntries (entries : List (CborValue × CborValue)) :
    (referenceEntries entries).length = (entries.map fun entry =>
      (referenceEncoding entry.1).length + (referenceEncoding entry.2).length).sum := by
  induction entries with
  | nil => rfl
  | cons entry rest ih =>
      rw [referenceEntries, List.length_append, List.length_append, ih, List.map_cons,
        List.sum_cons]

/-- The order in which the entries of a map are written does not change its length. -/
theorem length_normalize_map (entries : List (CborValue × CborValue)) :
    (referenceEncoding (normalize (.map entries))).length =
      (referenceHead 5 entries.length).length + (entries.map fun entry =>
        (referenceEncoding (normalize entry.1)).length +
          (referenceEncoding (normalize entry.2)).length).sum := by
  have hPerm := sortByKey_perm writtenKey entries
  rw [normalize_map, referenceEncoding, List.length_append, List.length_map,
    length_sortByKey, length_referenceEntries, List.map_map]
  exact congrArg _ (hPerm.map _).sum_eq

namespace Small

variable {room size : Nat}

theorem mono {room' size' : Nat} {value : CborValue} (h : Small room size value)
    (hRoom : room ≤ room') (hSize : size ≤ size') : Small room' size' value :=
  ⟨fun depth hDepth => h.profile depth (by omega), h.length.trans hSize⟩

theorem unsigned (value : UInt64) : Small 0 9 (.unsigned value) :=
  ⟨fun _ hDepth => .unsigned hDepth value, length_referenceHead_le _ _⟩

theorem signed (value : Int64) : Small 0 9 (signed value) := by
  unfold Protocol.signed
  split
  · exact unsigned _
  · rename_i hSign
    have hNegative : value.toInt < 0 := by
      by_contra hInt
      exact hSign (Int64.le_iff_toInt_le.mpr (by simpa using hInt))
    exact ⟨fun _ hDepth => .negative hDepth value hNegative,
      length_referenceHead_le _ _⟩

theorem bytes {value : Bytes} (hLength : value.length ≤ size)
    (hSize : size ≤ 65536) : Small 0 (9 + size) (.bytes value) := by
  refine ⟨fun _ hDepth => .bytes hDepth value (hLength.trans hSize), ?_⟩
  have hHead := length_referenceHead_le 2 value.length
  rw [normalize, referenceEncoding, List.length_append]
  omega

/-- An array of fixed length is a byte string of that length. -/
theorem byteArr {length : Nat} (value : ByteArr length) (hLength : length ≤ size)
    (hSize : size ≤ 65536) : Small 0 (9 + size) (.bytes value.val) :=
  bytes (value.property.le.trans hLength) hSize

theorem text {value : String} (hLength : (utf8 value).length ≤ size)
    (hSize : size ≤ 16384) : Small 0 (9 + size) (.text value) := by
  refine ⟨fun _ hDepth => .text hDepth value (hLength.trans hSize), ?_⟩
  have hHead := length_referenceHead_le 3 (utf8 value).length
  rw [normalize, referenceEncoding, List.length_append]
  omega

theorem array {values : List CborValue} {count : Nat}
    (hLength : values.length ≤ count) (hCount : count ≤ 16384)
    (h : ∀ value ∈ values, Small room size value) :
    Small (room + 1) (9 + count * size) (.array values) := by
  have hItems : ∀ value ∈ values.map normalize,
      (referenceEncoding value).length ≤ size := by
    intro value hValue
    obtain ⟨original, hOriginal, rfl⟩ := List.mem_map.mp hValue
    exact (h original hOriginal).length
  constructor
  · intro depth hDepth
    rw [normalize_array]
    refine .array (by omega) _ (by rw [List.length_map]; exact hLength.trans hCount) ?_
    intro value hValue
    obtain ⟨original, hOriginal, rfl⟩ := List.mem_map.mp hValue
    exact (h original hOriginal).profile (depth + 1) (by omega)
  · have hHead := length_referenceHead_le 4 values.length
    have hBody := length_referenceItems_le hItems
    have hTotal := Nat.mul_le_mul_right size hLength
    rw [normalize_array, referenceEncoding, List.length_append, List.length_map]
    rw [List.length_map] at hBody
    omega

/-- A map with a bound for each of its values. -/
theorem map {entries : List (CborValue × CborValue)} {keySize : Nat}
    {size : CborValue × CborValue → Nat} (hDistinct : (entries.map writtenKey).Nodup)
    (hCount : entries.length ≤ 128) (hKeys : ∀ entry ∈ entries, Small room keySize entry.1)
    (hValues : ∀ entry ∈ entries, Small room (size entry) entry.2) :
    Small (room + 1) (9 + (entries.map fun entry => keySize + size entry).sum)
      (.map entries) := by
  have hOriginal : ∀ entry ∈ (sortByKey writtenKey entries).map normalizeEntry,
      ∃ original ∈ entries, normalizeEntry original = entry := by
    intro entry hEntry
    obtain ⟨original, hSorted, hSame⟩ := List.mem_map.mp hEntry
    exact ⟨original, mem_sortByKey.mp hSorted, hSame⟩
  constructor
  · intro depth hDepth
    have hOrder : KeysOrdered (normalize (.map entries)) :=
      keysOrdered_normalize_iff.mpr hDistinct
    rw [normalize_map] at hOrder ⊢
    refine .map (by omega) _ ?_ ?_ ?_ hOrder
    · rw [List.length_map, length_sortByKey]
      exact hCount
    · intro entry hEntry
      obtain ⟨original, hMem, rfl⟩ := hOriginal entry hEntry
      exact (hKeys original hMem).profile (depth + 1) (by omega)
    · intro entry hEntry
      obtain ⟨original, hMem, rfl⟩ := hOriginal entry hEntry
      exact (hValues original hMem).profile (depth + 1) (by omega)
  · rw [length_normalize_map]
    refine Nat.add_le_add (length_referenceHead_le 5 entries.length)
      (List.sum_le_sum fun entry hEntry => ?_)
    exact Nat.add_le_add (hKeys entry hEntry).length (hValues entry hEntry).length

/-- The size that is set for the field of an entry. -/
def sizeOfField (size : UInt64 → Nat) : CborValue × CborValue → Nat
  | (.unsigned key, _) => size key
  | _ => 0

/-- A record with a bound for each of its fields. -/
theorem fields {table : List (UInt64 × CborValue)} (size : UInt64 → Nat)
    (hKeys : (table.map Prod.fst).Nodup) (hCount : table.length ≤ 128)
    (h : ∀ entry ∈ table, Small room (size entry.1) entry.2) :
    Small (room + 1) (9 + (table.map fun entry => 9 + size entry.1).sum)
      (record table) := by
  let written : UInt64 × CborValue → CborValue × CborValue := fun entry =>
    field entry.1 entry.2
  have hMap : Small (room + 1)
      (9 + ((table.map written).map fun entry => 9 + sizeOfField size entry).sum)
      (.map (table.map written)) := by
    refine map (Layout.writtenKeys_nodup hKeys) ?_ ?_ ?_
    · rw [List.length_map]
      exact hCount
    · intro entry hEntry
      obtain ⟨original, -, rfl⟩ := List.mem_map.mp hEntry
      exact (unsigned original.1).mono (Nat.zero_le _) le_rfl
    · intro entry hEntry
      obtain ⟨original, hMem, rfl⟩ := List.mem_map.mp hEntry
      exact h original hMem
  rw [List.map_map] at hMap
  exact hMap

/-- A record whose values are small. -/
theorem record {table : List (UInt64 × CborValue)} {count : Nat}
    (hKeys : (table.map Prod.fst).Nodup) (hLength : table.length ≤ count)
    (hCount : count ≤ 128) (h : ∀ entry ∈ table, Small room size entry.2) :
    Small (room + 1) (9 + count * (9 + size)) (record table) := by
  refine (fields (fun _ => size) hKeys (hLength.trans hCount) h).mono le_rfl
    (Nat.add_le_add_left ?_ 9)
  rw [List.map_const', List.sum_replicate_nat]
  exact Nat.mul_le_mul_right _ hLength

theorem tag {value : CborValue} (h : Small room size value) :
    Small (room + 1) (9 + size) (.tag 18 value) := by
  constructor
  · intro depth hDepth
    exact .tag (by omega) _ (h.profile (depth + 1) (by omega))
  · have hHead := length_referenceHead_le 6 (18 : UInt64).toNat
    have hBody := h.length
    rw [normalize, referenceEncoding, List.length_append]
    omega

/-- A small value can be encoded, in at most as many bytes. -/
theorem encode_eq_ok {value : CborValue} (h : Small room size value)
    (hRoom : room ≤ 16) (hSize : size ≤ 1048576) :
    ∃ output, encode value = .ok output ∧ output.length ≤ size := by
  refine ⟨_, encode_eq_ok_iff.mpr ⟨h.length.trans hSize, ?_, rfl⟩, h.length⟩
  apply h.profile 0
  show 0 + room ≤ 16
  omega

end Small

/-! ### Envelopes -/

theorem small_protectedHeader {kid : Bytes} (contentType : UInt64)
    (hKid : kid.length ≤ 32) : Small 1 159 (protectedHeader kid contentType) := by
  have hTable : protectedHeader kid contentType =
      record [(1, .negative COSE_EDDSA), (3, .unsigned contentType),
        (4, .bytes kid)] := rfl
  rw [hTable]
  have hKeys : [(1 : UInt64), 3, 4].Nodup := by decide
  show Small (0 + 1) (9 + 3 * (9 + 41)) _
  refine Small.record hKeys le_rfl (by decide) ?_
  simp only [List.forall_mem_cons]
  refine ⟨(Small.signed COSE_EDDSA).mono le_rfl (by decide),
    (Small.unsigned contentType).mono le_rfl (by decide),
    Small.bytes hKid (by decide), by simp⟩

theorem length_label_le (domain : Domain) : domain.label.length ≤ 64 := by
  cases domain <;> decide +kernel

/-- A payload that fits a byte string can be signed under a key ID of a proper
length, and the envelope can be sent. -/
theorem CoseSign1.exists_signed [Cryptography] {payload kid : Bytes}
    (contentType : UInt64) (domain : Domain) (signingKey : ByteArr 32)
    (hKid : 8 ≤ kid.length ∧ kid.length ≤ 32) (hPayload : payload.length ≤ 65536) :
    ∃ cose output, CoseSign1.sign payload kid contentType domain signingKey =
      .ok cose ∧ cose.encode = .ok output := by
  obtain ⟨header, hEncoded, hLength⟩ :=
    (small_protectedHeader contentType hKid.2).encode_eq_ok (by decide) (by decide)
  have hHeader : protectedBytes kid contentType = .ok header := by
    have hValid : validateKid kid = .ok () := validateKid_eq_ok_iff.mpr hKid
    rw [protectedBytes, hValid, ok_bind, hEncoded]
    rfl
  have hText : Small 0 (9 + 10) (.text "Signature1") :=
    Small.text (by decide +kernel) (by decide)
  have hHeaderBytes : Small 0 (9 + 65536) (.bytes header) :=
    Small.bytes (hLength.trans (by decide)) le_rfl
  have hPayloadBytes : Small 0 (9 + 65536) (.bytes payload) :=
    Small.bytes hPayload le_rfl
  have hSigned : Small 1 (9 + 4 * (9 + 65536))
      (signatureArray header domain payload) := by
    refine Small.array le_rfl (by decide) ?_
    simp only [List.forall_mem_cons]
    refine ⟨hText.mono le_rfl (by decide), hHeaderBytes,
      Small.bytes ((length_label_le domain).trans (by decide)) le_rfl,
      hPayloadBytes, by simp⟩
  obtain ⟨message, hMessage, -⟩ := hSigned.encode_eq_ok (by decide) (by decide)
  have hStructure : signatureStructure header domain payload = .ok message := by
    rw [signatureStructure, hMessage]
    rfl
  let cose : CoseSign1 :=
    { kid, contentType, payload, header
      signature := Cryptography.sign signingKey message }
  have hEmpty : Small (0 + 1) (9 + 0 * (9 + 0)) (record []) :=
    Small.record List.nodup_nil le_rfl (by decide) (by simp)
  have hSignature : Small 0 (9 + 65536) (.bytes cose.signature.val) :=
    Small.byteArr cose.signature (by decide) le_rfl
  have hEnvelope : Small 3 (9 + (9 + 4 * (9 + 65536)))
      (CoseSign1.envelope header payload cose.signature.val) := by
    refine Small.tag (Small.array le_rfl (by decide) ?_)
    simp only [List.forall_mem_cons]
    exact ⟨hHeaderBytes.mono (by decide) le_rfl, hEmpty.mono le_rfl (by decide),
      hPayloadBytes.mono (by decide) le_rfl, hSignature.mono (by decide) le_rfl,
      by simp⟩
  obtain ⟨output, hOutput, -⟩ := hEnvelope.encode_eq_ok (by decide) (by decide)
  refine ⟨cose, output, CoseSign1.sign_eq_ok_iff.mpr
    ⟨header, message, hHeader, hStructure, rfl⟩, ?_⟩
  exact CoseSign1.encode_eq_ok_iff.mpr ⟨encode_eq_ok_iff_decode.mp hOutput, hHeader⟩

end Protocol
end RootPermit
