import RootPermit.Foundation.Run
import RootPermit.Relay.Spool

/-!
# Snapshots of a spool

* `readEntry_exact` — an entry is read exactly where its bytes stand;
* `decodeSpool_eq_ok_iff` — a snapshot is the mark of the format, a count and that
  many entries with different identifiers, and nothing after them;
* `decodeSpool_encodeSpool` — every sound spool is read back from its snapshot;
* `Snapshot.eq_of_isPrefix` — no snapshot continues another one;
* `snapshot_roundTrip` — for the spools of all runs, and for all byte strings.
-/

namespace RootPermit
namespace Relay

open Foundation

/-! ### Readers of fields -/

theorem readExact_eq_ok_iff {length : Nat} {before after : Cursor}
    {array : ByteArr length} :
    readExact length before = .ok (array, after) ↔ before.Reads array.val after := by
  simp only [readExact, bind_eq_ok_iff, Prod.exists, orFault_eq_ok_iff,
    Cursor.advance?_eq_some_iff, ByteArr.ofBytes?_eq_some_iff, pure_eq_ok,
    Except.ok.injEq, Prod.mk.injEq]
  constructor
  · intro h
    obtain ⟨bytes, middle, ⟨-, hReads⟩, found, rfl, rfl, rfl⟩ := h
    exact hReads
  · intro h
    exact ⟨array.val, after, ⟨array.property, h⟩, array, rfl, rfl, rfl⟩

theorem readByte_eq_ok_iff {before after : Cursor} {value : UInt8} :
    readByte before = .ok (value, after) ↔ before.Reads [value] after := by
  rw [readByte, orFault_eq_ok_iff, Cursor.next?_eq_some_iff]

theorem readU32_eq_ok_iff {before after : Cursor} {value : UInt32} :
    readU32 before = .ok (value, after) ↔
      before.Reads (beBytes 4 value.toNat) after := by
  simp only [readU32, run_bind_eq_ok_iff, readExact_eq_ok_iff, run_pure_eq_ok_iff]
  constructor
  · intro h
    obtain ⟨⟨bytes, hLength⟩, middle, hReads, rfl, rfl⟩ := h
    have hBound : beValue bytes < 2 ^ 32 := by
      have hValue := beValue_lt bytes
      rwa [hLength] at hValue
    rw [UInt32.toNat_ofNat_of_lt' hBound]
    show before.Reads (beBytes 4 (beValue bytes)) middle
    rw [← hLength, beBytes_beValue]
    exact hReads
  · intro h
    refine ⟨⟨beBytes 4 value.toNat, length_beBytes 4 _⟩, after, h, ?_, rfl⟩
    show UInt32.ofNat (beValue (beBytes 4 value.toNat)) = value
    rw [beValue_beBytes_of_lt value.toNat_lt, UInt32.ofNat_toNat]

theorem readU64_eq_ok_iff {before after : Cursor} {value : UInt64} :
    readU64 before = .ok (value, after) ↔
      before.Reads (beBytes 8 value.toNat) after := by
  simp only [readU64, run_bind_eq_ok_iff, readExact_eq_ok_iff, run_pure_eq_ok_iff]
  constructor
  · intro h
    obtain ⟨⟨bytes, hLength⟩, middle, hReads, rfl, rfl⟩ := h
    have hBound : beValue bytes < 2 ^ 64 := by
      have hValue := beValue_lt bytes
      rwa [hLength] at hValue
    rw [UInt64.toNat_ofNat_of_lt' hBound]
    show before.Reads (beBytes 8 (beValue bytes)) middle
    rw [← hLength, beBytes_beValue]
    exact hReads
  · intro h
    refine ⟨⟨beBytes 8 value.toNat, length_beBytes 8 _⟩, after, h, ?_, rfl⟩
    show UInt64.ofNat (beValue (beBytes 8 value.toNat)) = value
    rw [beValue_beBytes_of_lt value.toNat_lt, UInt64.ofNat_toNat]

/-- The two direction codes are read back, and no other code is. -/
theorem decodeDirection_eq_ok_iff {value : UInt8} {direction : Direction} :
    decodeDirection value = .ok direction ↔ value = direction.code := by
  constructor
  · intro h
    unfold decodeDirection at h
    split at h <;> cases h <;> rfl
  · rintro rfl
    cases direction <;> rfl

/-- The nine kind codes are read back, and no other code is. -/
theorem decodeObjectKind_eq_ok_iff {value : UInt8} {kind : ObjectKind} :
    decodeObjectKind value = .ok kind ↔ value = objectKindCode kind := by
  constructor
  · intro h
    unfold decodeObjectKind at h
    split at h <;> cases h <;> rfl
  · rintro rfl
    cases kind <;> rfl

/-- A length that fits is written as it is. -/
theorem lengthBytes_of_lt {length : Nat} (h : length < 2 ^ 32) :
    lengthBytes length = beBytes 4 length := by
  have hValue : toU32? length = some (UInt32.ofNat length) := by
    rw [toU32?_eq_some_iff, UInt32.toNat_ofNat_of_lt' h]
  rw [lengthBytes, hValue, Option.getD_some, UInt32.toNat_ofNat_of_lt' h]

/-! ### One entry -/

theorem readEntry_exact :
    Cursor.Exact readEntry (fun entry => entry.envelope.Sound) encodeEntry := by
  intro before entry after
  simp only [readEntry, encodeEntry, run_bind_eq_ok_iff, run_lift_eq_ok_iff,
    run_pure_eq_ok_iff, readExact_eq_ok_iff, readByte_eq_ok_iff, readU32_eq_ok_iff,
    readU64_eq_ok_iff, decodeDirection_eq_ok_iff, decodeObjectKind_eq_ok_iff,
    mapError_eq_ok_iff, OpaqueEnvelope.new_eq_ok_iff, rejectIf_eq_ok_iff,
    Cursor.reads_append_iff]
  constructor
  · intro h
    obtain ⟨_, _, hId, _, _, hDirection, _, _, ⟨rfl, rfl⟩, _, _, hKind, _, _,
      ⟨rfl, rfl⟩, _, _, hKey, _, _, hAttempts, _, _, hNext, length, _, hLength, _, _,
      ⟨-, rfl⟩, payload, _, hPayload, _, _, ⟨⟨hSound, rfl⟩, rfl⟩, rfl, rfl⟩ := h
    have hCount : lengthBytes payload.val.length = beBytes 4 length.toNat := by
      rw [payload.property, lengthBytes_of_lt length.toNat_lt]
    rw [← hCount] at hLength
    exact ⟨hSound, _, hId, _, hDirection, _, hKind, _, hKey, _, hAttempts, _, hNext, _,
      hLength, hPayload⟩
  · intro h
    obtain ⟨hSound, _, hId, _, hDirection, _, hKind, _, hKey, _, hAttempts, _, hNext, _,
      hLength, hPayload⟩ := h
    have hBound := hSound.bounded
    have hLimit : entry.envelope.payload.length < 2 ^ 32 := by
      have hMaximum : MAX_OPAQUE_ENVELOPE_BYTES < 2 ^ 32 := by decide
      omega
    have hCount : (UInt32.ofNat entry.envelope.payload.length).toNat =
        entry.envelope.payload.length := UInt32.toNat_ofNat_of_lt' hLimit
    rw [lengthBytes_of_lt hLimit, ← hCount] at hLength
    refine ⟨_, _, hId, _, _, hDirection, _, _, ⟨rfl, rfl⟩, _, _, hKind, _, _,
      ⟨rfl, rfl⟩, _, _, hKey, _, _, hAttempts, _, _, hNext, _, _, hLength, (), _,
      ⟨?_, rfl⟩, ⟨entry.envelope.payload, hCount.symm⟩, _, hPayload, entry.envelope, _,
      ⟨⟨hSound, rfl⟩, rfl⟩, rfl, rfl⟩
    rw [hCount]
    omega

/-! ### Many entries -/

/-- The entries of a list are put into a spool, one after the other. -/
def RelaySpool.extend (spool : RelaySpool) : List SpoolEntry → RelaySpool
  | [] => spool
  | entry :: entries =>
      RelaySpool.extend ⟨spool.entries.insert entry.envelope.envelopeId entry⟩ entries

/-- The identifiers of a list of entries. -/
def identifiers (entries : List SpoolEntry) : List EnvelopeId :=
  entries.map fun entry => entry.envelope.envelopeId

@[simp] theorem identifiers_cons (entry : SpoolEntry) (entries : List SpoolEntry) :
    identifiers (entry :: entries) = entry.envelope.envelopeId :: identifiers entries :=
  rfl

/-- The loop reads entries of different identifiers that the spool does not have. -/
theorem readEntries_eq_ok_iff {count : Nat} {spool result : RelaySpool}
    {before after : Cursor} :
    readEntries count spool before = .ok (result, after) ↔
      ∃ entries, Cursor.times readEntry count before = .ok (entries, after) ∧
        (identifiers entries).Nodup ∧
        (∀ envelopeId ∈ identifiers entries, envelopeId ∉ spool.entries) ∧
        spool.extend entries = result := by
  induction count generalizing spool before with
  | zero =>
      simp only [readEntries, run_pure_eq_ok_iff, Cursor.times, Except.ok.injEq,
        Prod.mk.injEq]
      constructor
      · rintro ⟨rfl, rfl⟩
        exact ⟨[], ⟨rfl, rfl⟩, List.nodup_nil, by simp [identifiers], rfl⟩
      · rintro ⟨entries, ⟨rfl, rfl⟩, -, -, rfl⟩
        exact ⟨rfl, rfl⟩
  | succ count ih =>
      simp only [readEntries, run_bind_eq_ok_iff, run_lift_eq_ok_iff,
        rejectIf_eq_ok_iff, ih, Std.ExtTreeMap.contains_iff_mem,
        Cursor.times_succ_eq_ok_iff]
      constructor
      · intro h
        obtain ⟨entry, _, hEntry, -, _, ⟨hNew, rfl⟩, rest, hRest, hNodup, hFresh,
          rfl⟩ := h
        refine ⟨entry :: rest, ⟨entry, rest, _, rfl, hEntry, hRest⟩, ?_, ?_, rfl⟩
        · rw [identifiers_cons, List.nodup_cons]
          refine ⟨fun hMem => hFresh _ hMem ?_, hNodup⟩
          exact SpoolMap.mem_insert_iff.mpr (.inl rfl)
        · rw [identifiers_cons, List.forall_mem_cons]
          refine ⟨hNew, fun envelopeId hMem hOld => hFresh envelopeId hMem ?_⟩
          exact SpoolMap.mem_insert_iff.mpr (.inr hOld)
      · intro h
        obtain ⟨_, ⟨entry, rest, middle, rfl, hEntry, hRest⟩, hNodup, hFresh, rfl⟩ := h
        rw [identifiers_cons, List.nodup_cons] at hNodup
        rw [identifiers_cons, List.forall_mem_cons] at hFresh
        refine ⟨entry, middle, hEntry, (), middle, ⟨hFresh.1, rfl⟩, rest, hRest,
          hNodup.2, ?_, rfl⟩
        intro envelopeId hMem hOld
        rcases SpoolMap.mem_insert_iff.mp hOld with rfl | hOld
        · exact hNodup.1 hMem
        · exact hFresh.2 envelopeId hMem hOld

/-- What is found in a spool after the entries of a list were put into it. -/
theorem getElem?_extend {entries : List SpoolEntry} {spool : RelaySpool}
    (hNodup : (identifiers entries).Nodup) {envelopeId : EnvelopeId}
    {found : SpoolEntry} :
    (spool.extend entries).entries[envelopeId]? = some found ↔
      (found ∈ entries ∧ found.envelope.envelopeId = envelopeId) ∨
        (envelopeId ∉ identifiers entries ∧
          spool.entries[envelopeId]? = some found) := by
  induction entries generalizing spool with
  | nil => simp [RelaySpool.extend, identifiers]
  | cons entry entries ih =>
      rw [identifiers_cons, List.nodup_cons] at hNodup
      obtain ⟨hHead, hTail⟩ := hNodup
      rw [RelaySpool.extend, ih hTail, SpoolMap.getElem?_insert, identifiers_cons]
      by_cases hSame : entry.envelope.envelopeId = envelopeId
      · subst hSame
        simp only [if_true, Option.some.injEq, List.mem_cons, not_true_eq_false,
          false_and, or_false, hHead, not_false_eq_true, true_and]
        constructor
        · rintro (⟨hMem, hId⟩ | rfl)
          · exact ⟨.inr hMem, hId⟩
          · exact ⟨.inl rfl, rfl⟩
        · rintro ⟨rfl | hMem, hId⟩
          · exact .inr rfl
          · exact .inl ⟨hMem, hId⟩
      · have hOther : ¬ envelopeId = entry.envelope.envelopeId := fun h => hSame h.symm
        simp only [if_neg hSame, List.mem_cons, not_or, hOther, not_false_eq_true,
          true_and]
        constructor
        · rintro (⟨hMem, hId⟩ | hOld)
          · exact .inl ⟨.inr hMem, hId⟩
          · exact .inr hOld
        · rintro (⟨rfl | hMem, hId⟩ | hOld)
          · exact absurd hId hSame
          · exact .inl ⟨hMem, hId⟩
          · exact .inr hOld

/-- Entries that are new to a spool are counted in full. -/
theorem size_extend (spool : RelaySpool) {entries : List SpoolEntry}
    (hNodup : (identifiers entries).Nodup)
    (hFresh : ∀ envelopeId ∈ identifiers entries, envelopeId ∉ spool.entries) :
    (spool.extend entries).entries.size = spool.entries.size + entries.length := by
  induction entries generalizing spool with
  | nil => simp [RelaySpool.extend]
  | cons entry entries ih =>
      rw [identifiers_cons, List.nodup_cons] at hNodup
      rw [identifiers_cons, List.forall_mem_cons] at hFresh
      have hRest : ∀ envelopeId ∈ identifiers entries,
          envelopeId ∉ spool.entries.insert entry.envelope.envelopeId entry := by
        intro envelopeId hMem hOld
        rcases SpoolMap.mem_insert_iff.mp hOld with rfl | hOld
        · exact hNodup.1 hMem
        · exact hFresh.2 envelopeId hMem hOld
      have hSize : (spool.entries.insert entry.envelope.envelopeId entry).size =
          spool.entries.size + 1 := SpoolMap.size_insert_of_not_mem hFresh.1
      have hExtended := ih ⟨spool.entries.insert entry.envelope.envelopeId entry⟩
        hNodup.2 hRest
      rw [RelaySpool.extend, hExtended, hSize, List.length_cons]
      omega

/-! ### Snapshots -/

/-- A snapshot of a list of entries, in any order of the entries. -/
def snapshotBytes (entries : List SpoolEntry) : Bytes :=
  SPOOL_MAGIC.val ++ (lengthBytes entries.length ++ entries.flatMap encodeEntry)

/-- The entries that a snapshot may have. -/
structure Snapshot (entries : List SpoolEntry) : Prop where
  bounded : entries.length ≤ MAX_RETAINED_ENVELOPES
  sound : ∀ entry ∈ entries, entry.envelope.Sound
  distinct : (identifiers entries).Nodup

theorem Snapshot.length_lt {entries : List SpoolEntry} (h : Snapshot entries) :
    entries.length < 2 ^ 32 := by
  have hBound := h.bounded
  have hMaximum : MAX_RETAINED_ENVELOPES < 2 ^ 32 := by decide
  omega

/-- What `decode_spool` accepts, and the spool that it returns. -/
theorem decodeSpool_eq_ok_iff {bytes : Bytes} {spool : RelaySpool} :
    decodeSpool bytes = .ok spool ↔
      ∃ entries, Snapshot entries ∧ bytes = snapshotBytes entries ∧
        RelaySpool.empty.extend entries = spool := by
  simp only [decodeSpool, bind_eq_ok_iff, Prod.exists, readExact_eq_ok_iff,
    rejectIf_eq_ok_iff, exists_const, readU32_eq_ok_iff, readEntries_eq_ok_iff,
    not_not, pure_eq_ok, Except.ok.injEq]
  constructor
  · intro h
    obtain ⟨_, first, hMagic, rfl, count, second, hCount, hBound, _, last,
      ⟨entries, hTimes, hNodup, -, rfl⟩, hEnd, rfl⟩ := h
    obtain ⟨⟨hLength, hSound⟩, hReads⟩ := (readEntry_exact.times _ _ _ _).mp hTimes
    have hWritten : lengthBytes entries.length = beBytes 4 count.toNat := by
      rw [hLength, lengthBytes_of_lt count.toNat_lt]
    refine ⟨entries, ⟨by omega, hSound, hNodup⟩, ?_, rfl⟩
    apply Cursor.reads_start_iff.mp
    refine ⟨last, ?_, hEnd⟩
    rw [snapshotBytes, hWritten]
    simp only [Cursor.reads_append_iff]
    exact ⟨first, hMagic, second, hCount, hReads⟩
  · intro h
    obtain ⟨entries, hSnapshot, hBytes, rfl⟩ := h
    obtain ⟨last, hReads, hEnd⟩ := Cursor.reads_start_iff.mpr hBytes
    simp only [snapshotBytes, Cursor.reads_append_iff] at hReads
    obtain ⟨first, hMagic, second, hCount, hReads⟩ := hReads
    have hValue : (UInt32.ofNat entries.length).toNat = entries.length :=
      UInt32.toNat_ofNat_of_lt' hSnapshot.length_lt
    rw [lengthBytes_of_lt hSnapshot.length_lt, ← hValue] at hCount
    have hTimes : Cursor.times readEntry entries.length second = .ok (entries, last) :=
      (readEntry_exact.times _ _ _ _).mpr ⟨⟨rfl, hSnapshot.sound⟩, hReads⟩
    refine ⟨_, first, hMagic, rfl, _, second, hCount, ?_, _, last,
      ⟨entries, ?_, hSnapshot.distinct, ?_, rfl⟩, hEnd, rfl⟩
    · rw [hValue]
      exact not_lt.mpr hSnapshot.bounded
    · rw [hValue]
      exact hTimes
    · intro envelopeId _ hMem
      exact Std.ExtTreeMap.not_mem_empty hMem

/-- No snapshot continues another one. -/
theorem Snapshot.eq_of_isPrefix {first second : List SpoolEntry}
    (hFirst : Snapshot first)
    (hSecond : Snapshot second)
    (hPrefix : snapshotBytes first <+: snapshotBytes second) : first = second := by
  rw [snapshotBytes, snapshotBytes, List.prefix_append_right_inj,
    lengthBytes_of_lt hFirst.length_lt, lengthBytes_of_lt hSecond.length_lt] at hPrefix
  -- The counts stand in the same four bytes.
  have hCount : beBytes 4 first.length = beBytes 4 second.length := by
    obtain ⟨rest, hRest⟩ := hPrefix
    have hBytes := congrArg (List.take 4) hRest
    rw [List.append_assoc, List.take_left' (length_beBytes 4 _),
      List.take_left' (length_beBytes 4 _)] at hBytes
    exact hBytes
  have hLength : first.length = second.length := by
    have hValue := congrArg beValue hCount
    rwa [beValue_beBytes_of_lt hFirst.length_lt,
      beValue_beBytes_of_lt hSecond.length_lt] at hValue
  rw [hLength, List.prefix_append_right_inj] at hPrefix
  exact (readEntry_exact.times second.length).eq_of_isPrefix ⟨hLength, hFirst.sound⟩
    ⟨rfl, hSecond.sound⟩ hPrefix

/-! ### Sound spools -/

/-- A spool that `encode_spool` can store. -/
structure RelaySpool.Sound (spool : RelaySpool) : Prop where
  bounded : spool.entries.size ≤ MAX_RETAINED_ENVELOPES
  keyed : ∀ {envelopeId : EnvelopeId} {entry : SpoolEntry},
    spool.entries[envelopeId]? = some entry →
    entry.envelope.envelopeId = envelopeId
  sound : ∀ {envelopeId : EnvelopeId} {entry : SpoolEntry},
    spool.entries[envelopeId]? = some entry →
    entry.envelope.Sound

theorem RelaySpool.length_values (spool : RelaySpool) :
    spool.values.length = spool.entries.size := by
  rw [RelaySpool.values, List.length_map, Std.ExtTreeMap.length_toList]

theorem RelaySpool.mem_values_iff {spool : RelaySpool} {entry : SpoolEntry} :
    entry ∈ spool.values ↔
      ∃ envelopeId : EnvelopeId, spool.entries[envelopeId]? = some entry := by
  simp [RelaySpool.values, Std.ExtTreeMap.mem_toList_iff_getElem?_eq_some]

namespace RelaySpool.Sound

variable {spool : RelaySpool}

theorem mem_values_iff (h : spool.Sound) {entry : SpoolEntry} :
    entry ∈ spool.values ↔
      spool.entries[entry.envelope.envelopeId]? = some entry := by
  rw [RelaySpool.mem_values_iff]
  constructor
  · rintro ⟨envelopeId, hFound⟩
    rw [h.keyed hFound]
    exact hFound
  · intro hFound
    exact ⟨_, hFound⟩

/-- The values of a sound spool have the keys of the map as identifiers. -/
theorem identifiers_values (h : spool.Sound) :
    identifiers spool.values = spool.entries.keys := by
  rw [identifiers, RelaySpool.values, List.map_map,
    ← Std.ExtTreeMap.map_fst_toList_eq_keys]
  apply List.map_congr_left
  rintro ⟨envelopeId, entry⟩ hMem
  exact h.keyed (Std.ExtTreeMap.mem_toList_iff_getElem?_eq_some.mp hMem)

theorem snapshot_values (h : spool.Sound) : Snapshot spool.values where
  bounded := by
    rw [spool.length_values]
    exact h.bounded
  sound := by
    intro entry hMem
    exact h.sound (h.mem_values_iff.mp hMem)
  distinct := by
    rw [h.identifiers_values]
    exact Std.ExtTreeMap.nodup_keys

theorem encodeSpool_eq : encodeSpool spool = snapshotBytes spool.values := by
  rw [encodeSpool, snapshotBytes, spool.length_values]

/-- The values of a sound spool make up the spool. -/
theorem extend_values (h : spool.Sound) :
    RelaySpool.empty.extend spool.values = spool := by
  ext envelopeId entry
  rw [getElem?_extend h.snapshot_values.distinct, h.mem_values_iff]
  constructor
  · rintro (⟨hFound, rfl⟩ | ⟨-, hFound⟩)
    · exact hFound
    · simp [RelaySpool.empty] at hFound
  · intro hFound
    have hId := h.keyed hFound
    refine .inl ⟨?_, hId⟩
    rw [hId]
    exact hFound

/-- Every sound spool is read back from its snapshot. -/
theorem decodeSpool_encodeSpool (h : spool.Sound) :
    decodeSpool (encodeSpool spool) = .ok spool :=
  decodeSpool_eq_ok_iff.mpr
    ⟨spool.values, h.snapshot_values, encodeSpool_eq, h.extend_values⟩

end RelaySpool.Sound

/-- What is put into the empty spool from a snapshot makes a sound spool. -/
theorem Snapshot.sound_extend {entries : List SpoolEntry} (h : Snapshot entries) :
    (RelaySpool.empty.extend entries).Sound := by
  have hFound : ∀ {envelopeId : EnvelopeId} {entry : SpoolEntry},
      (RelaySpool.empty.extend entries).entries[envelopeId]? = some entry →
        entry ∈ entries ∧ entry.envelope.envelopeId = envelopeId := by
    intro envelopeId entry hEntry
    rcases (getElem?_extend h.distinct).mp hEntry with hMem | ⟨-, hOld⟩
    · exact hMem
    · simp [RelaySpool.empty] at hOld
  have hSize := size_extend .empty h.distinct
    fun _ _ hMem => Std.ExtTreeMap.not_mem_empty hMem
  refine ⟨?_, fun hEntry => (hFound hEntry).2,
    fun hEntry => h.sound _ (hFound hEntry).1⟩
  have hBound := h.bounded
  have hEmpty : RelaySpool.empty.entries.size = 0 := Std.ExtTreeMap.size_empty
  omega

/-- The spool of a snapshot has the entries of the snapshot as its values. -/
theorem Snapshot.perm_values {entries : List SpoolEntry} (h : Snapshot entries) :
    entries.Perm (RelaySpool.empty.extend entries).values := by
  have hSound := h.sound_extend
  have hNodup : ∀ {list : List SpoolEntry}, (identifiers list).Nodup → list.Nodup := by
    intro list hList
    refine List.Pairwise.of_map _ ?_ hList
    rintro first second hDistinct rfl
    exact hDistinct rfl
  rw [List.perm_ext_iff_of_nodup (hNodup h.distinct)
    (hNodup hSound.snapshot_values.distinct)]
  intro entry
  rw [hSound.mem_values_iff, getElem?_extend h.distinct]
  simp [RelaySpool.empty]

/-! ### The spools of all runs -/

namespace RelaySpool.Sound

variable {spool : RelaySpool}

theorem empty : RelaySpool.empty.Sound := by
  have hNone : Snapshot [] := ⟨Nat.zero_le _, by simp, List.nodup_nil⟩
  exact hNone.sound_extend

/-- An entry may be replaced by another one of the same envelope. -/
theorem replace (h : spool.Sound) {envelopeId : EnvelopeId} {old new : SpoolEntry}
    (hOld : spool.entries[envelopeId]? = some old)
    (hEnvelope : new.envelope = old.envelope) :
    RelaySpool.Sound ⟨spool.entries.insert envelopeId new⟩ := by
  have hMem : envelopeId ∈ spool.entries := by
    rw [Std.ExtTreeMap.mem_iff_isSome_getElem?, hOld]
    rfl
  refine ⟨?_, ?_, ?_⟩
  · show (spool.entries.insert envelopeId new).size ≤ _
    rw [SpoolMap.size_insert_of_mem hMem]
    exact h.bounded
  · intro other entry hFound
    rw [SpoolMap.getElem?_insert] at hFound
    split at hFound
    · rename_i hSame
      cases hFound
      rw [hEnvelope, h.keyed hOld, hSame]
    · exact h.keyed hFound
  · intro other entry hFound
    rw [SpoolMap.getElem?_insert] at hFound
    split at hFound
    · cases hFound
      rw [hEnvelope]
      exact h.sound hOld
    · exact h.sound hFound

theorem enqueue (h : spool.Sound) {envelope : BuiltEnvelope} {nowMonoNs : UInt64}
    {changed : RelaySpool}
    (hChanged : spool.enqueue envelope nowMonoNs = .ok changed) : changed.Sound := by
  obtain ⟨hNew, hRoom, rfl⟩ := RelaySpool.enqueue_eq_ok_iff.mp hChanged
  refine ⟨?_, ?_, ?_⟩
  · show (spool.entries.insert _ _).size ≤ _
    rw [SpoolMap.size_insert_of_not_mem hNew]
    omega
  · intro other entry hFound
    rw [SpoolMap.getElem?_insert] at hFound
    split at hFound
    · rename_i hSame
      cases hFound
      exact hSame
    · exact h.keyed hFound
  · intro other entry hFound
    rw [SpoolMap.getElem?_insert] at hFound
    split at hFound
    · cases hFound
      exact envelope.property
    · exact h.sound hFound

theorem acknowledge (h : spool.Sound) {envelopeId : EnvelopeId}
    {idempotencyKey : ByteArr 32} {changed : RelaySpool}
    (hChanged : spool.acknowledge envelopeId idempotencyKey = .ok changed) :
    changed.Sound := by
  obtain ⟨-, -, -, rfl⟩ := RelaySpool.acknowledge_eq_ok_iff.mp hChanged
  have hOld : ∀ {other : EnvelopeId} {entry : SpoolEntry},
      (spool.entries.erase envelopeId)[other]? = some entry →
        spool.entries[other]? = some entry := by
    intro other entry hFound
    rw [SpoolMap.getElem?_erase] at hFound
    split at hFound
    · cases hFound
    · exact hFound
  exact ⟨Std.ExtTreeMap.size_erase_le.trans h.bounded,
    fun hFound => h.keyed (hOld hFound), fun hFound => h.sound (hOld hFound)⟩

theorem retryLater (h : spool.Sound) {envelopeId : EnvelopeId}
    {nextAttemptMonoNs : UInt64} {changed : RelaySpool}
    (hChanged : spool.retryLater envelopeId nextAttemptMonoNs = .ok changed) :
    changed.Sound := by
  obtain ⟨entry, hFound, rfl⟩ := RelaySpool.retryLater_eq_ok_iff.mp hChanged
  exact h.replace hFound rfl

theorem nextDelivery (h : spool.Sound) (nowMonoNs : UInt64) :
    (spool.nextDelivery nowMonoNs).2.Sound := by
  rcases spool.nextDelivery_cases nowMonoNs with hSame | hClaimed
  · rw [hSame]
    exact h
  · obtain ⟨envelopeId, entry, hFound, hNext⟩ := hClaimed
    rw [hNext]
    exact h.replace hFound rfl

theorem step (h : spool.Sound) (call : RelaySpool.Call) : (spool.step call).Sound := by
  cases call with
  | enqueue envelope nowMonoNs =>
      exact RelaySpool.settle_property h fun _ hChanged => h.enqueue hChanged
  | nextDelivery nowMonoNs => exact h.nextDelivery nowMonoNs
  | acknowledge envelopeId idempotencyKey =>
      exact RelaySpool.settle_property h fun _ hChanged => h.acknowledge hChanged
  | retryLater envelopeId nextAttemptMonoNs =>
      exact RelaySpool.settle_property h fun _ hChanged => h.retryLater hChanged

/-- Every spool of a run is sound. -/
theorem run (calls : List RelaySpool.Call) :
    (Foundation.run RelaySpool.step .empty calls).Sound :=
  run_invariant RelaySpool.Sound.empty (fun _ call h => h.step call) calls

end RelaySpool.Sound

/-- A snapshot is read as one spool at most, and its entries are those that the
snapshot lists. -/
theorem sound_of_decodeSpool {bytes : Bytes} {spool : RelaySpool}
    (h : decodeSpool bytes = .ok spool) :
    spool.Sound ∧ ∃ entries, bytes = snapshotBytes entries ∧
      entries.Perm spool.values := by
  obtain ⟨entries, hSnapshot, hBytes, rfl⟩ := decodeSpool_eq_ok_iff.mp h
  exact ⟨hSnapshot.sound_extend, entries, hBytes, hSnapshot.perm_values⟩

/-- A beginning of a snapshot is a snapshot only if it is all of it. -/
theorem eq_of_decodeSpool_of_isPrefix {first second : Bytes} {spool other : RelaySpool}
    (hFirst : decodeSpool first = .ok spool) (hSecond : decodeSpool second = .ok other)
    (hPrefix : first <+: second) : first = second := by
  obtain ⟨entries, hSnapshot, rfl, -⟩ := decodeSpool_eq_ok_iff.mp hFirst
  obtain ⟨entries', hSnapshot', rfl, -⟩ := decodeSpool_eq_ok_iff.mp hSecond
  rw [hSnapshot.eq_of_isPrefix hSnapshot' hPrefix]

/-- The spool of every run is read back from its snapshot, with every envelope, count
and deadline, while no proper beginning and no continuation of the snapshot is
accepted.  Every byte string that is accepted lists, from its first to its last byte,
the entries of the resulting spool: at most 4096 of different identifiers, with
bounded payloads, and of kinds that are permitted in their directions. -/
theorem snapshot_roundTrip :
    (∀ calls : List RelaySpool.Call,
      let spool := run RelaySpool.step .empty calls
      decodeSpool (encodeSpool spool) = .ok spool ∧
        (∀ bytes, bytes <+: encodeSpool spool → bytes ≠ encodeSpool spool →
          ∀ other, decodeSpool bytes ≠ .ok other) ∧
        ∀ more, more ≠ [] →
          ∀ other, decodeSpool (encodeSpool spool ++ more) ≠ .ok other) ∧
    ∀ (bytes : Bytes) (spool : RelaySpool), decodeSpool bytes = .ok spool →
      (∃ entries : List SpoolEntry,
        bytes = SPOOL_MAGIC.val ++
          (beBytes 4 entries.length ++ entries.flatMap encodeEntry) ∧
        entries.Perm spool.values) ∧
      spool.values.length ≤ 4096 ∧
      (spool.values.map fun entry => entry.envelope.envelopeId).Nodup ∧
      ∀ entry ∈ spool.values, entry.envelope.payload.length ≤ 262144 ∧
        entry.envelope.kind.permittedIn entry.envelope.direction = true := by
  constructor
  · intro calls spool
    have hRead : decodeSpool (encodeSpool spool) = .ok spool :=
      (RelaySpool.Sound.run calls).decodeSpool_encodeSpool
    refine ⟨hRead, ?_, ?_⟩
    · intro bytes hPrefix hProper other hOther
      exact hProper (eq_of_decodeSpool_of_isPrefix hOther hRead hPrefix)
    · intro more hMore other hOther
      have hSame :=
        eq_of_decodeSpool_of_isPrefix hRead hOther (List.prefix_append _ more)
      exact hMore (List.self_eq_append_right.mp hSame)
  · intro bytes spool hSpool
    obtain ⟨hSound, entries, hBytes, hPerm⟩ := sound_of_decodeSpool hSpool
    have hSnapshot := hSound.snapshot_values
    refine ⟨⟨entries, ?_, hPerm⟩, hSnapshot.bounded, hSnapshot.distinct, ?_⟩
    · have hLength := hSnapshot.length_lt
      rw [← hPerm.length_eq] at hLength
      rw [hBytes, snapshotBytes, lengthBytes_of_lt hLength]
    · intro entry hMem
      have hEntry := hSnapshot.sound entry hMem
      exact ⟨hEntry.bounded, hEntry.permitted⟩

end Relay
end RootPermit
