import RootPermit.Protocol.Schema

/-!
# Field tables and their readers

A schema is described here by a list of field specifications.  Each one says
what is written for the field, which values are valid, and that reading is
exact: a canonical value converts only to what would be written as that value.
The three laws of a whole message follow from those of its fields.

* `Conversion` — one field value, with the laws of its conversion;
* `FieldSpec` — a field of a message, required or optional;
* `Layout` — a message whose reader succeeds exactly when all its fields do;
* `Layout.readMessage_sound`, `Layout.readMessage_record` and
  `Layout.readMessage_normalize_iff` — the laws used by the round trips.
-/

namespace RootPermit
namespace Protocol

open Foundation

/-! ### Tables -/

/-- The table holds exactly these fields. -/
def Holds (fields : Fields) (table : List (UInt64 × CborValue)) : Prop :=
  ∀ key value, fields.lookup key = some value ↔ (key, value) ∈ table

theorem Holds.mem_iff {fields : Fields} {table : List (UInt64 × CborValue)}
    (h : Holds fields table) {key : UInt64} :
    key ∈ fields ↔ key ∈ table.map Prod.fst := by
  rw [← AList.lookup_isSome, Option.isSome_iff_exists, List.mem_map]
  constructor
  · intro hSome
    obtain ⟨value, hValue⟩ := hSome
    exact ⟨(key, value), (h key value).mp hValue, rfl⟩
  · intro hMem
    obtain ⟨⟨_, value⟩, hEntry, rfl⟩ := hMem
    exact ⟨value, (h _ value).mpr hEntry⟩

theorem Holds.congr_perm {fields : Fields}
    {table other : List (UInt64 × CborValue)} (h : Holds fields table)
    (hPerm : table.Perm other) : Holds fields other :=
  fun key value => (h key value).trans hPerm.mem_iff

/-- The entries of a table as they stand in a record. -/
def recordEntries (table : List (UInt64 × CborValue)) :
    List (CborValue × CborValue) :=
  table.map fun entry => field entry.1 entry.2

theorem recordEntries_injective : Function.Injective recordEntries := by
  refine List.map_injective_iff.mpr ?_
  intro first second h
  simp only [field, Prod.mk.injEq, CborValue.unsigned.injEq] at h
  exact Prod.ext h.1 h.2

theorem record_injective : Function.Injective record := by
  intro table other h
  exact recordEntries_injective (CborValue.map.inj h)

theorem insertFields_eq_ok {entries : List (CborValue × CborValue)}
    {start final : Fields} (h : insertFields entries start = .ok final) :
    ∃ table : List (UInt64 × CborValue),
      entries = recordEntries table ∧ (table.map Prod.fst).Nodup ∧
      (∀ key ∈ table.map Prod.fst, key ∉ start) ∧
      ∀ key value, final.lookup key = some value ↔
        (key, value) ∈ table ∨ start.lookup key = some value := by
  induction entries generalizing start with
  | nil =>
      simp only [insertFields, Except.ok.injEq] at h
      subst h
      exact ⟨[], rfl, List.nodup_nil, by simp, by simp⟩
  | cons entry rest ih =>
      obtain ⟨key, value⟩ := entry
      cases key with
      | unsigned key =>
          simp only [insertFields, bind_eq_ok_iff, rejectIf_eq_ok_iff] at h
          obtain ⟨_, hFresh, hRest⟩ := h
          obtain ⟨table, rfl, hNodup, hDisjoint, hLookup⟩ := ih hRest
          -- The key is in use from here on, so the rest does not have it.
          have hOutside : key ∉ table.map Prod.fst := by
            intro hMem
            exact hDisjoint key hMem ((AList.mem_insert start).mpr (.inl rfl))
          refine ⟨(key, value) :: table, rfl, ?_, ?_, ?_⟩
          · exact List.nodup_cons.mpr ⟨hOutside, hNodup⟩
          · intro other hOther
            rcases List.mem_cons.mp hOther with rfl | hTail
            · exact hFresh
            · intro hMem
              exact hDisjoint other hTail ((AList.mem_insert start).mpr (.inr hMem))
          · intro other found
            rw [hLookup, List.mem_cons, Prod.mk.injEq]
            by_cases hKey : other = key
            · subst hKey
              have hNone : start.lookup other = none :=
                AList.lookup_eq_none.mpr hFresh
              have hNotMem : (other, found) ∉ table := fun hMem =>
                hOutside (List.mem_map_of_mem (f := Prod.fst) hMem)
              rw [AList.lookup_insert, hNone]
              simp [hNotMem, eq_comm]
            · rw [AList.lookup_insert_ne hKey]
              simp [hKey]
      | _ => simp [insertFields] at h

theorem insertFields_recordEntries {table : List (UInt64 × CborValue)}
    (hNodup : (table.map Prod.fst).Nodup) {start : Fields}
    (hDisjoint : ∀ key ∈ table.map Prod.fst, key ∉ start) :
    ∃ final, insertFields (recordEntries table) start = .ok final := by
  induction table generalizing start with
  | nil => exact ⟨start, rfl⟩
  | cons entry rest ih =>
      obtain ⟨hOutside, hNodup⟩ := List.nodup_cons.mp hNodup
      obtain ⟨hFresh, hDisjoint⟩ := List.forall_mem_cons.mp hDisjoint
      have hRest : ∀ key ∈ rest.map Prod.fst,
          key ∉ start.insert entry.1 entry.2 := by
        intro key hKey hMem
        rcases (AList.mem_insert start).mp hMem with rfl | hStart
        · exact hOutside hKey
        · exact hDisjoint key hKey hStart
      obtain ⟨final, hFinal⟩ := ih hNodup hRest
      refine ⟨final, ?_⟩
      change insertFields ((CborValue.unsigned entry.1, entry.2) ::
        recordEntries rest) start = _
      rw [insertFields, rejectIf, if_neg hFresh, ok_bind]
      exact hFinal

theorem fields_eq_ok {value : CborValue} {table : Fields}
    (h : fields value = .ok table) :
    ∃ entries, value = record entries ∧ (entries.map Prod.fst).Nodup ∧
      Holds table entries := by
  cases value with
  | map entries =>
      obtain ⟨found, rfl, hNodup, -, hLookup⟩ := insertFields_eq_ok h
      refine ⟨found, rfl, hNodup, ?_⟩
      intro key value
      rw [hLookup, AList.lookup_empty]
      simp
  | _ => cases h

theorem fields_record {entries : List (UInt64 × CborValue)}
    (hNodup : (entries.map Prod.fst).Nodup) :
    ∃ table, fields (record entries) = .ok table ∧ Holds table entries := by
  have hEmpty : ∀ key ∈ entries.map Prod.fst, key ∉ (∅ : Fields) :=
    fun key _ => AList.notMem_empty key
  obtain ⟨table, hTable⟩ := insertFields_recordEntries hNodup hEmpty
  obtain ⟨found, hFound, -, -, hLookup⟩ := insertFields_eq_ok hTable
  refine ⟨table, hTable, ?_⟩
  have hSame : found = entries := recordEntries_injective hFound.symm
  subst hSame
  intro key value
  rw [hLookup, AList.lookup_empty]
  simp

theorem rejectUnknown_eq_ok_iff {table : Fields} {known : List UInt64}
    {result : Unit} :
    rejectUnknown table known = .ok result ↔ ∀ key ∈ table, key ∈ known := by
  have hFind : ((table.keys.insertionSort (· ≤ ·)).find?
      fun key => !known.contains key) = none ↔ ∀ key ∈ table, key ∈ known := by
    rw [List.find?_eq_none]
    simp only [List.mem_insertionSort, Bool.not_eq_true', Bool.not_eq_false,
      List.contains_iff_mem, AList.mem_keys]
  rw [← hFind, rejectUnknown]
  cases (table.keys.insertionSort (· ≤ ·)).find? fun key => !known.contains key with
  | none => simp
  | some key => simp

/-! ### Field values -/

/-- A value that some message of the profile contains. -/
def Admitted (value : CborValue) : Prop :=
  ∃ depth, InProfile .default depth value

/-- How one field value is read and written.  On canonical values the two are
inverse to each other. -/
structure Conversion (α : Type) where
  convert : CborValue → Except SchemaError α
  write : α → CborValue
  Valid : α → Prop
  complete : ∀ content, Valid content → convert (write content) = .ok content
  valid : ∀ content found, convert (write content) = .ok found → Valid content
  sound : ∀ value content, Admitted value → convert value = .ok content →
    value = write content ∧ Valid content

namespace Conversion

def unsigned (field : UInt64) : Conversion UInt64 where
  convert := asUnsigned field
  write := .unsigned
  Valid _ := True
  complete _ _ := rfl
  valid _ _ _ := trivial
  sound := by
    intro value content _ h
    cases value with
    | unsigned found =>
        simp only [asUnsigned, Except.ok.injEq] at h
        exact ⟨congrArg _ h, trivial⟩
    | _ => simp [asUnsigned] at h

theorem natAbs_toUInt64 {value : Int64} (hSign : 0 ≤ value.toInt) :
    ((UInt64.ofNat value.toInt.natAbs).toNat : Int) = value.toInt := by
  have hHigh : value.toInt < 2 ^ 63 := value.toInt_lt
  have hSize : UInt64.size = 2 ^ 64 := rfl
  rw [UInt64.toNat_ofNat_of_lt' (by omega)]
  omega

/-- Non-negative values are written as unsigned integers. -/
def signed (field : UInt64) : Conversion Int64 where
  convert := asSigned field
  write := Protocol.signed
  Valid _ := True
  complete := by
    intro content _
    unfold Protocol.signed
    split
    · rename_i hSign
      have hInt : 0 ≤ content.toInt := Int64.le_iff_toInt_le.mp hSign
      simp only [asSigned, orFault_eq_ok_iff, toI64?_eq_some_iff]
      exact (natAbs_toUInt64 hInt).symm
    · rfl
  valid _ _ _ := trivial
  sound := by
    intro value content hAdmitted h
    refine ⟨?_, trivial⟩
    obtain ⟨depth, hProfile⟩ := hAdmitted
    cases value with
    | unsigned found =>
        simp only [asSigned, orFault_eq_ok_iff, toI64?_eq_some_iff] at h
        have hInt : 0 ≤ content.toInt := by omega
        have hSign : content ≥ 0 := Int64.le_iff_toInt_le.mpr hInt
        have hSame := natAbs_toUInt64 hInt
        rw [Protocol.signed, if_pos hSign]
        congr 1
        apply UInt64.toNat_inj.mp
        omega
    | negative found =>
        simp only [asSigned, Except.ok.injEq] at h
        subst h
        cases hProfile with
        | negative _ _ hNegative =>
            have hSign : ¬ found ≥ 0 := by
              intro hSign
              have hInt : 0 ≤ found.toInt := Int64.le_iff_toInt_le.mp hSign
              omega
            rw [Protocol.signed, if_neg hSign]
    | _ => simp [asSigned] at h

theorem asBoundedBytes_eq_ok_iff {field : UInt64} {minimum maximum : Nat}
    {value : CborValue} {content : Bytes} :
    asBoundedBytes field minimum maximum value = .ok content ↔
      value = .bytes content ∧ minimum ≤ content.length ∧
        content.length ≤ maximum := by
  cases value with
  | bytes found =>
      simp only [asBoundedBytes, CborValue.bytes.injEq]
      split
      · rename_i hBounds
        simp only [Except.ok.injEq]
        constructor
        · rintro rfl
          exact ⟨rfl, hBounds⟩
        · intro h
          exact h.1
      · rename_i hBounds
        simp only [reduceCtorEq, false_iff]
        rintro ⟨rfl, hFound⟩
        exact hBounds hFound
  | _ => simp [asBoundedBytes]

def boundedBytes (field : UInt64) (minimum maximum : Nat) : Conversion Bytes where
  convert := asBoundedBytes field minimum maximum
  write := .bytes
  Valid content := minimum ≤ content.length ∧ content.length ≤ maximum
  complete _ h := asBoundedBytes_eq_ok_iff.mpr ⟨rfl, h⟩
  valid content found h := by
    obtain ⟨hSame, hBounds⟩ := asBoundedBytes_eq_ok_iff.mp h
    cases hSame
    exact hBounds
  sound _ _ _ h := asBoundedBytes_eq_ok_iff.mp h

/-- A byte array of fixed length, whatever fault its conversion reports. -/
def fixedBytes (field : UInt64) (length : Nat) (fault : Bytes → SchemaError) :
    Conversion (ByteArr length) where
  convert value := do
    let value ← asBoundedBytes field length length value
    orFault (fault value) (ByteArr.ofBytes? length value)
  write content := .bytes content.val
  Valid _ := True
  complete := by
    intro content _
    have hBytes : asBoundedBytes field length length (.bytes content.val) =
        .ok content.val :=
      asBoundedBytes_eq_ok_iff.mpr
        ⟨rfl, Nat.le_of_eq content.property.symm, Nat.le_of_eq content.property⟩
    rw [hBytes, ok_bind, ByteArr.ofBytes?_val]
    rfl
  valid _ _ _ := trivial
  sound := by
    intro value content _ h
    simp only [bind_eq_ok_iff, asBoundedBytes_eq_ok_iff, orFault_eq_ok_iff,
      ByteArr.ofBytes?_eq_some_iff] at h
    obtain ⟨found, ⟨rfl, -⟩, rfl⟩ := h
    exact ⟨rfl, trivial⟩

def digest (field : UInt64) : Conversion Digest :=
  fixedBytes field 32 fun _ => .invalidField field

def identifier (name : String) (length : Nat) (field : UInt64) :
    Conversion (ByteArr length) :=
  fixedBytes field length fun value =>
    .identifier (.wrongLength name length value.length)

def array (field : UInt64) : Conversion (List CborValue) where
  convert := asArray field
  write := .array
  Valid _ := True
  complete _ _ := rfl
  valid _ _ _ := trivial
  sound := by
    intro value content _ h
    cases value with
    | array found =>
        simp only [asArray, Except.ok.injEq] at h
        exact ⟨congrArg _ h, trivial⟩
    | _ => simp [asArray] at h

theorem asMap_eq_ok_iff {field : UInt64} {value content : CborValue} :
    asMap field value = .ok content ↔
      value = content ∧ content.isMap = true := by
  simp only [asMap, bind_eq_ok_iff, rejectIf_eq_ok_iff, pure_eq_ok,
    Except.ok.injEq, Bool.not_eq_true', Bool.not_eq_false, exists_const]
  constructor
  · intro h
    obtain ⟨hMap, rfl⟩ := h
    exact ⟨rfl, hMap⟩
  · intro h
    obtain ⟨rfl, hMap⟩ := h
    exact ⟨hMap, rfl⟩

def map (field : UInt64) : Conversion CborValue where
  convert := asMap field
  write content := content
  Valid content := content.isMap = true
  complete _ h := asMap_eq_ok_iff.mpr ⟨rfl, h⟩
  valid content found h := by
    obtain ⟨rfl, hMap⟩ := asMap_eq_ok_iff.mp h
    exact hMap
  sound _ _ _ h := asMap_eq_ok_iff.mp h

/-- A field that keeps whatever value it has. -/
def any : Conversion CborValue where
  convert := .ok
  write content := content
  Valid _ := True
  complete _ _ := rfl
  valid _ _ _ := trivial
  sound _ _ _ h := ⟨Except.ok.inj h, trivial⟩

theorem asText_eq_ok_iff {field : UInt64} {maximum : Nat} {value : CborValue}
    {content : String} :
    asText field maximum value = .ok content ↔
      value = .text content ∧ (utf8 content).length ≤ maximum := by
  cases value with
  | text found =>
      simp only [asText, CborValue.text.injEq]
      split
      · rename_i hBound
        simp only [Except.ok.injEq]
        constructor
        · rintro rfl
          exact ⟨rfl, hBound⟩
        · intro h
          exact h.1
      · rename_i hBound
        simp only [reduceCtorEq, false_iff]
        rintro ⟨rfl, hFound⟩
        exact hBound hFound
  | _ => simp [asText]

def text (field : UInt64) (maximum : Nat) : Conversion String where
  convert := asText field maximum
  write := .text
  Valid content := (utf8 content).length ≤ maximum
  complete _ h := asText_eq_ok_iff.mpr ⟨rfl, h⟩
  valid content found h := by
    obtain ⟨hSame, hBound⟩ := asText_eq_ok_iff.mp h
    cases hSame
    exact hBound
  sound _ _ _ h := asText_eq_ok_iff.mp h

theorem asNonEmptyText_eq_ok_iff {field : UInt64} {maximum : Nat}
    {value : CborValue} {content : String} :
    asNonEmptyText field maximum value = .ok content ↔
      value = .text content ∧ (utf8 content).length ≤ maximum ∧
        utf8 content ≠ [] := by
  simp only [asNonEmptyText, nonEmpty, bind_eq_ok_iff, asText_eq_ok_iff,
    rejectIf_eq_ok_iff, pure_eq_ok, Except.ok.injEq, exists_const]
  constructor
  · intro h
    obtain ⟨_, ⟨rfl, hBound⟩, hNonEmpty, rfl⟩ := h
    exact ⟨rfl, hBound, hNonEmpty⟩
  · intro h
    obtain ⟨rfl, hBound, hNonEmpty⟩ := h
    exact ⟨content, ⟨rfl, hBound⟩, hNonEmpty, rfl⟩

def nonEmptyText (field : UInt64) (maximum : Nat) : Conversion String where
  convert := asNonEmptyText field maximum
  write := .text
  Valid content := (utf8 content).length ≤ maximum ∧ utf8 content ≠ []
  complete _ h := asNonEmptyText_eq_ok_iff.mpr ⟨rfl, h⟩
  valid content found h := by
    obtain ⟨hSame, hValid⟩ := asNonEmptyText_eq_ok_iff.mp h
    cases hSame
    exact hValid
  sound _ _ _ h := asNonEmptyText_eq_ok_iff.mp h

/-- An enumeration written as its code. -/
def coded {α : Type} (field : UInt64) (code : α → UInt64)
    (fromCode : UInt64 → Except SchemaError α)
    (hCode : ∀ found content, fromCode found = .ok content ↔ found = code content) :
    Conversion α where
  convert value := do
    let found ← asUnsigned field value
    fromCode found
  write content := .unsigned (code content)
  Valid _ := True
  complete content _ := (hCode (code content) content).mpr rfl
  valid _ _ _ := trivial
  sound := by
    intro value content hAdmitted h
    obtain ⟨found, hFound, hOk⟩ := bind_eq_ok_iff.mp h
    obtain ⟨rfl, -⟩ := (unsigned field).sound value found hAdmitted hFound
    have hSame := (hCode found content).mp hOk
    subst hSame
    exact ⟨rfl, trivial⟩

def operation : Conversion Operation :=
  coded 12 Operation.code Operation.fromCode (by
    intro found content
    cases content
    simp [Operation.fromCode, Operation.code])

def decision : Conversion Decision :=
  coded 10 Decision.code Decision.fromCode (by
    intro found content
    unfold Decision.fromCode
    split
    · rename_i hApprove
      subst hApprove
      cases content <;> simp [Decision.code]
    · rename_i hApprove
      split
      · rename_i hDeny
        subst hDeny
        cases content <;> simp [Decision.code]
      · rename_i hDeny
        cases content <;> simp [Decision.code, hApprove, hDeny])

def version : Conversion Unit :=
  coded 1 (fun _ => VERSION)
    (fun actual => rejectIf (actual ≠ VERSION) (.protocolMismatch actual)) (by
      intro found content
      simp)

end Conversion

/-! ### Readers -/

/-- The field is present and converts to this content. -/
def FieldIs {α : Type} (key : UInt64)
    (convert : CborValue → Except SchemaError α) (fields : Fields)
    (content : α) : Prop :=
  ∃ value, fields.lookup key = some value ∧ convert value = .ok content

/-- The field is absent, or present and converts to this content. -/
def OptionalFieldIs {α : Type} (key : UInt64)
    (convert : CborValue → Except SchemaError α) (fields : Fields)
    (content : Option α) : Prop :=
  match content with
  | some content => FieldIs key convert fields content
  | none => fields.lookup key = none

theorem required_eq_requiredAs (key : UInt64) :
    required key = requiredAs key .ok := by
  funext fields
  simp only [requiredAs, ok_bind, pure_eq_ok]
  cases required key fields with
  | error fault => rfl
  | ok step => rfl

theorem requiredAs_eq_ok_iff {α : Type} {key : UInt64}
    {convert : CborValue → Except SchemaError α} {before after : Fields}
    {content : α} :
    requiredAs key convert before = .ok (content, after) ↔
      FieldIs key convert before content ∧ after = before.erase key := by
  simp only [requiredAs, required, FieldIs]
  cases before.lookup key with
  | none => simp
  | some value =>
      simp only [ok_bind, bind_eq_ok_iff, pure_eq_ok, Except.ok.injEq,
        Prod.mk.injEq, Option.some.injEq, exists_eq_left']
      constructor
      · intro h
        obtain ⟨found, hFound, rfl, rfl⟩ := h
        exact ⟨hFound, rfl⟩
      · intro h
        obtain ⟨hFound, rfl⟩ := h
        exact ⟨content, hFound, rfl, rfl⟩

theorem erase_of_notMem {key : UInt64} {fields : Fields} (h : key ∉ fields) :
    fields.erase key = fields :=
  AList.ext (List.kerase_of_notMem_keys h)

theorem optionalField_eq_ok_iff {α : Type} {key : UInt64}
    {convert : CborValue → Except SchemaError α} {before after : Fields}
    {content : Option α} :
    optionalField key (requiredAs key convert) before = .ok (content, after) ↔
      OptionalFieldIs key convert before content ∧
        after = before.erase key := by
  unfold optionalField
  by_cases hPresent : key ∈ before
  · rw [if_pos hPresent, map_eq_ok_iff]
    simp only [Prod.exists, requiredAs_eq_ok_iff, Prod.mk.injEq]
    constructor
    · intro h
      obtain ⟨found, rest, ⟨hField, rfl⟩, rfl, rfl⟩ := h
      exact ⟨hField, rfl⟩
    · intro h
      obtain ⟨hField, rfl⟩ := h
      cases content with
      | none => exact absurd hPresent (AList.lookup_eq_none.mp hField)
      | some content => exact ⟨content, _, ⟨hField, rfl⟩, rfl, rfl⟩
  · have hNone : before.lookup key = none := AList.lookup_eq_none.mpr hPresent
    rw [if_neg hPresent, erase_of_notMem hPresent, Except.ok.injEq, Prod.mk.injEq]
    cases content with
    | none => simp [OptionalFieldIs, hNone, eq_comm]
    | some content => simp [OptionalFieldIs, FieldIs, hNone]

theorem fieldIs_erase {α : Type} {key erased : UInt64}
    {convert : CborValue → Except SchemaError α} {fields : Fields} {content : α}
    (h : key ≠ erased) :
    FieldIs key convert (fields.erase erased) content ↔
      FieldIs key convert fields content := by
  simp only [FieldIs, AList.lookup_erase_ne h]

theorem optionalFieldIs_erase {α : Type} {key erased : UInt64}
    {convert : CborValue → Except SchemaError α} {fields : Fields}
    {content : Option α} (h : key ≠ erased) :
    OptionalFieldIs key convert (fields.erase erased) content ↔
      OptionalFieldIs key convert fields content := by
  cases content with
  | none => simp only [OptionalFieldIs, AList.lookup_erase_ne h]
  | some content => exact fieldIs_erase h

/-- The reader succeeds with this message. -/
def Yields {T : Type} (read : FieldReader T) (fields : Fields) (message : T) :
    Prop :=
  ∃ rest, read fields = .ok (message, rest)

/-- A reader takes the content of one key and leaves the rest of the table. -/
theorem yields_bind {α T : Type} {read : FieldReader α} {Content : α → Prop}
    {next : α → FieldReader T} {fields remaining : Fields} {message : T}
    (hRead : ∀ content rest, read fields = .ok (content, rest) ↔
      Content content ∧ rest = remaining) :
    Yields (read >>= next) fields message ↔
      ∃ content, Content content ∧ Yields (next content) remaining message := by
  simp only [Yields, run_bind_eq_ok_iff, hRead]
  constructor
  · intro h
    obtain ⟨rest, content, _, ⟨hField, rfl⟩, hNext⟩ := h
    exact ⟨content, hField, rest, hNext⟩
  · intro h
    obtain ⟨content, hField, rest, hNext⟩ := h
    exact ⟨rest, content, _, ⟨hField, rfl⟩, hNext⟩

theorem yields_requiredAs_bind {α T : Type} {key : UInt64}
    {convert : CborValue → Except SchemaError α} {next : α → FieldReader T}
    {fields : Fields} {message : T} :
    Yields (requiredAs key convert >>= next) fields message ↔
      ∃ content, FieldIs key convert fields content ∧
        Yields (next content) (fields.erase key) message :=
  yields_bind fun _ _ => requiredAs_eq_ok_iff

theorem yields_optionalField_bind {α T : Type} {key : UInt64}
    {convert : CborValue → Except SchemaError α}
    {next : Option α → FieldReader T} {fields : Fields} {message : T} :
    Yields (optionalField key (requiredAs key convert) >>= next) fields message ↔
      ∃ content, OptionalFieldIs key convert fields content ∧
        Yields (next content) (fields.erase key) message :=
  yields_bind fun _ _ => optionalField_eq_ok_iff

theorem yields_pure {T : Type} {content message : T} {fields : Fields} :
    Yields (pure content) fields message ↔ content = message := by
  simp [Yields, run_pure_eq_ok_iff]

/-! ### Fields of a message -/

/-- One field of a message `T`, with the laws of reading it. -/
structure FieldSpec (T : Type) where
  key : UInt64
  Reads : T → Fields → Prop
  image : T → Option CborValue
  Valid : T → Prop
  complete : ∀ fields message, fields.lookup key = image message →
    Valid message → Reads message fields
  valid : ∀ fields message found, fields.lookup key = image message →
    Reads found fields → Valid message
  sound : ∀ fields message,
    (∀ value, fields.lookup key = some value → Admitted value) →
    Reads message fields →
    fields.lookup key = image message ∧ Valid message

namespace FieldSpec

variable {T α : Type}

def required (key : UInt64) (conversion : Conversion α) (part : T → α) :
    FieldSpec T where
  key := key
  Reads message fields := FieldIs key conversion.convert fields (part message)
  image message := some (conversion.write (part message))
  Valid message := conversion.Valid (part message)
  complete _ message hLookup hValid :=
    ⟨_, hLookup, conversion.complete (part message) hValid⟩
  valid := by
    intro fields message found hLookup hReads
    obtain ⟨value, hValue, hConvert⟩ := hReads
    rw [hLookup, Option.some.injEq] at hValue
    subst hValue
    exact conversion.valid _ _ hConvert
  sound := by
    intro fields message hAdmitted hReads
    obtain ⟨value, hValue, hConvert⟩ := hReads
    obtain ⟨rfl, hValid⟩ :=
      conversion.sound value _ (hAdmitted value hValue) hConvert
    exact ⟨hValue, hValid⟩

def optional (key : UInt64) (conversion : Conversion α)
    (part : T → Option α) : FieldSpec T where
  key := key
  Reads message fields :=
    OptionalFieldIs key conversion.convert fields (part message)
  image message := (part message).map conversion.write
  Valid message := ∀ content ∈ part message, conversion.Valid content
  complete := by
    intro fields message hLookup hValid
    cases hPart : part message with
    | none =>
        rw [hPart] at hLookup
        exact hLookup
    | some content =>
        rw [hPart] at hLookup
        exact ⟨_, hLookup, conversion.complete content (hValid content hPart)⟩
  valid := by
    intro fields message found hLookup hReads content hContent
    rw [Option.mem_def] at hContent
    rw [hContent] at hLookup
    cases hPart : part found with
    | none =>
        rw [hPart] at hReads
        cases hLookup.symm.trans hReads
    | some other =>
        rw [hPart] at hReads
        obtain ⟨value, hValue, hConvert⟩ := hReads
        rw [hLookup, Option.map_some, Option.some.injEq] at hValue
        subst hValue
        exact conversion.valid _ _ hConvert
  sound := by
    intro fields message hAdmitted hReads
    cases hPart : part message with
    | none =>
        rw [hPart] at hReads
        exact ⟨hReads, by simp⟩
    | some content =>
        rw [hPart] at hReads
        obtain ⟨value, hValue, hConvert⟩ := hReads
        obtain ⟨rfl, hValid⟩ :=
          conversion.sound value _ (hAdmitted value hValue) hConvert
        refine ⟨hValue, ?_⟩
        intro other hOther
        cases hOther
        exact hValid

end FieldSpec

/-! ### Messages -/

/-- The normal form of the values of a table. -/
def normalizeTable (table : List (UInt64 × CborValue)) :
    List (UInt64 × CborValue) :=
  table.map fun entry => (entry.1, normalize entry.2)

/-- The entries of the fields that a message has, in the order of the fields. -/
def writtenEntries {T : Type} (specs : List (FieldSpec T)) (message : T) :
    List (UInt64 × CborValue) :=
  specs.filterMap fun spec =>
    (spec.image message).map fun value => (spec.key, value)

/-- A message schema: its entries and its reader agree on every field. -/
structure Layout (T : Type) where
  entries : T → List (UInt64 × CborValue)
  read : FieldReader T
  specs : List (FieldSpec T)
  normal : T → T
  keys_nodup : (specs.map FieldSpec.key).Nodup
  yields_iff : ∀ fields message, Yields read fields message ↔
    ∀ spec ∈ specs, spec.Reads message fields
  entries_perm : ∀ message,
    (entries message).Perm (writtenEntries specs message)
  entries_normal : ∀ message,
    entries (normal message) = normalizeTable (entries message)
  valid_normal : ∀ message, ∀ spec ∈ specs,
    spec.Valid message → spec.Valid (normal message)

namespace Layout

variable {T : Type} (layout : Layout T)

/-- The restrictions imposed while a message is read. -/
def Valid (message : T) : Prop :=
  ∀ spec ∈ layout.specs, spec.Valid message

/-- The keys accepted by `reject_unknown`. -/
def known : List UInt64 :=
  layout.specs.map FieldSpec.key

variable {layout}

theorem mem_entries_iff {message : T} {key : UInt64} {value : CborValue} :
    (key, value) ∈ layout.entries message ↔
      ∃ spec ∈ layout.specs, spec.key = key ∧ spec.image message = some value := by
  rw [(layout.entries_perm message).mem_iff, writtenEntries, List.mem_filterMap]
  constructor
  · intro h
    obtain ⟨spec, hSpec, hEntry⟩ := h
    obtain ⟨content, hContent, hSame⟩ := Option.map_eq_some_iff.mp hEntry
    cases hSame
    exact ⟨spec, hSpec, rfl, hContent⟩
  · intro h
    obtain ⟨spec, hSpec, rfl, hContent⟩ := h
    exact ⟨spec, hSpec, by rw [hContent, Option.map_some]⟩

theorem eq_of_key_eq {first second : FieldSpec T} (hFirst : first ∈ layout.specs)
    (hSecond : second ∈ layout.specs) (h : first.key = second.key) :
    first = second :=
  List.inj_on_of_nodup_map layout.keys_nodup hFirst hSecond h

theorem image_iff {message : T} {spec : FieldSpec T}
    (hSpec : spec ∈ layout.specs) {value : CborValue} :
    spec.image message = some value ↔
      (spec.key, value) ∈ layout.entries message := by
  rw [mem_entries_iff]
  constructor
  · intro h
    exact ⟨spec, hSpec, rfl, h⟩
  · intro h
    obtain ⟨other, hOther, hKey, hImage⟩ := h
    rwa [eq_of_key_eq hOther hSpec hKey] at hImage

theorem entries_known {message : T} {key : UInt64}
    (h : key ∈ (layout.entries message).map Prod.fst) : key ∈ layout.known := by
  obtain ⟨⟨_, value⟩, hEntry, rfl⟩ := List.mem_map.mp h
  obtain ⟨spec, hSpec, rfl, -⟩ := mem_entries_iff.mp hEntry
  exact List.mem_map_of_mem hSpec

theorem writtenKeys_sublist (specs : List (FieldSpec T)) (message : T) :
    ((writtenEntries specs message).map Prod.fst).Sublist
      (specs.map FieldSpec.key) := by
  induction specs with
  | nil => exact List.Sublist.slnil
  | cons spec rest ih =>
      rw [writtenEntries, List.filterMap_cons]
      cases spec.image message with
      | none => exact ih.cons _
      | some value => exact ih.cons_cons _

theorem entries_nodup (message : T) :
    ((layout.entries message).map Prod.fst).Nodup := by
  rw [((layout.entries_perm message).map Prod.fst).nodup_iff]
  exact layout.keys_nodup.sublist (writtenKeys_sublist layout.specs message)

theorem lookup_eq_image {fields : Fields} {message : T}
    (h : Holds fields (layout.entries message)) {spec : FieldSpec T}
    (hSpec : spec ∈ layout.specs) :
    fields.lookup spec.key = spec.image message := by
  apply Option.ext
  intro value
  rw [h spec.key value, image_iff hSpec]

/-- Reading the table of a message gives the message, if it is valid. -/
theorem yields_of_holds {fields : Fields} {message : T}
    (h : Holds fields (layout.entries message)) {found : T} :
    Yields layout.read fields found ↔
      found = message ∧ layout.Valid message := by
  have hComplete : layout.Valid message →
      Yields layout.read fields message := by
    intro hValid
    rw [layout.yields_iff]
    intro spec hSpec
    exact spec.complete fields message (lookup_eq_image h hSpec)
      (hValid spec hSpec)
  constructor
  · intro hRead
    have hReads := (layout.yields_iff fields found).mp hRead
    have hValid : layout.Valid message := fun spec hSpec =>
      spec.valid fields message found (lookup_eq_image h hSpec)
        (hReads spec hSpec)
    refine ⟨?_, hValid⟩
    obtain ⟨rest, hOk⟩ := hRead
    obtain ⟨rest', hOk'⟩ := hComplete hValid
    rw [hOk, Except.ok.injEq, Prod.mk.injEq] at hOk'
    exact hOk'.1
  · intro hValid
    obtain ⟨rfl, hValid⟩ := hValid
    exact hComplete hValid

theorem readMessage_eq_ok_iff {known : List UInt64} {read : FieldReader T}
    {value : CborValue} {message : T} :
    readMessage known read value = .ok message ↔
      ∃ table, fields value = .ok table ∧ (∀ key ∈ table, key ∈ known) ∧
        Yields read table message := by
  simp only [readMessage, Yields, bind_eq_ok_iff, rejectUnknown_eq_ok_iff, exists_const,
    Prod.exists, pure_eq_ok, Except.ok.injEq]
  constructor
  · intro h
    obtain ⟨table, hFields, hKnown, found, rest, hRead, rfl⟩ := h
    exact ⟨table, hFields, hKnown, rest, hRead⟩
  · intro h
    obtain ⟨table, hFields, hKnown, rest, hRead⟩ := h
    exact ⟨table, hFields, hKnown, message, rest, hRead, rfl⟩

/-- A table that lists the entries of a message in another order is read like
the message itself. -/
theorem readMessage_perm {message found : T}
    {table : List (UInt64 × CborValue)}
    (hPerm : table.Perm (layout.entries message)) :
    readMessage layout.known layout.read (record table) = .ok found ↔
      found = message ∧ layout.Valid message := by
  have hNodup : (table.map Prod.fst).Nodup :=
    (hPerm.map Prod.fst).nodup_iff.mpr (entries_nodup message)
  obtain ⟨fields', hFields, hHolds⟩ := fields_record hNodup
  have hMessage : Holds fields' (layout.entries message) :=
    hHolds.congr_perm hPerm
  have hKnown : ∀ key ∈ fields', key ∈ layout.known := by
    intro key hKey
    exact entries_known (hMessage.mem_iff.mp hKey)
  rw [readMessage_eq_ok_iff, ← yields_of_holds hMessage, hFields]
  constructor
  · intro h
    obtain ⟨_, hSame, -, hRead⟩ := h
    cases hSame
    exact hRead
  · intro h
    exact ⟨fields', rfl, hKnown, h⟩

theorem readMessage_record {message found : T} :
    readMessage layout.known layout.read (record (layout.entries message)) =
        .ok found ↔
      found = message ∧ layout.Valid message :=
  readMessage_perm (List.Perm.refl _)

theorem writtenKeys_nodup {table : List (UInt64 × CborValue)}
    (hNodup : (table.map Prod.fst).Nodup) :
    ((recordEntries table).map writtenKey).Nodup := by
  rw [recordEntries, List.map_map]
  rw [List.Nodup, List.pairwise_map] at hNodup ⊢
  refine hNodup.imp ?_
  intro first second hNe hSame
  have hKey := referenceEncoding_injective (.unsigned first.1)
    (.unsigned second.1) hSame
  exact hNe (CborValue.unsigned.inj hKey)

/-- The normal form of a record is a record of the normal forms. -/
theorem normalize_record (table : List (UInt64 × CborValue)) :
    ∃ sorted, normalize (record table) = record sorted ∧
      sorted.Perm (normalizeTable table) := by
  let key := fun entry : UInt64 × CborValue => writtenKey (field entry.1 entry.2)
  have hSort : sortByKey writtenKey (recordEntries table) =
      recordEntries (sortByKey key table) :=
    (map_sortByKey (fun entry : UInt64 × CborValue =>
      field entry.1 entry.2) fun _ _ => rfl).symm
  refine ⟨normalizeTable (sortByKey key table), ?_, ?_⟩
  · change normalize (.map (recordEntries table)) = _
    rw [normalize_map, hSort, record, normalizeTable, recordEntries,
      List.map_map, List.map_map]
    rfl
  · exact (sortByKey_perm key table).map _

theorem normalize_record_congr_perm {table other : List (UInt64 × CborValue)}
    (hNodup : (table.map Prod.fst).Nodup) (hPerm : table.Perm other) :
    normalize (record table) = normalize (record other) :=
  normalize_map_congr_perm (hPerm.map _) (writtenKeys_nodup hNodup)

theorem valid_normal_of_valid {message : T} (hValid : layout.Valid message) :
    layout.Valid (layout.normal message) :=
  fun spec hSpec => layout.valid_normal message spec hSpec (hValid spec hSpec)

/-- What travels for a message is read as its normal form, when that is valid. -/
theorem readMessage_normalize_iff {message found : T} :
    readMessage layout.known layout.read
        (normalize (record (layout.entries message))) = .ok found ↔
      found = layout.normal message ∧ layout.Valid (layout.normal message) := by
  obtain ⟨sorted, hSorted, hPerm⟩ := normalize_record (layout.entries message)
  rw [← layout.entries_normal] at hPerm
  rw [hSorted, readMessage_perm hPerm]

theorem admitted_of_holds {table : List (UInt64 × CborValue)} {fields : Fields}
    (hHolds : Holds fields table) (hRecord : Admitted (record table))
    {key : UInt64} {value : CborValue} (h : fields.lookup key = some value) :
    Admitted value := by
  obtain ⟨depth, hProfile⟩ := hRecord
  cases hProfile with
  | map _ _ _ _ hValues _ =>
      have hMem : field key value ∈ recordEntries table :=
        List.mem_map_of_mem (f := fun entry : UInt64 × CborValue =>
          field entry.1 entry.2) ((hHolds key value).mp h)
      exact ⟨depth + 1, hValues _ hMem⟩

/-- A canonical value is read only as the message it is the encoding of. -/
theorem readMessage_sound {value : CborValue} (hAdmitted : Admitted value)
    {message : T}
    (h : readMessage layout.known layout.read value = .ok message) :
    value = normalize (record (layout.entries message)) ∧
      layout.Valid message := by
  obtain ⟨fields', hFields, hKnown, hRead⟩ := readMessage_eq_ok_iff.mp h
  obtain ⟨table, rfl, hNodup, hHolds⟩ := fields_eq_ok hFields
  have hSound : ∀ spec ∈ layout.specs,
      fields'.lookup spec.key = spec.image message ∧ spec.Valid message := by
    intro spec hSpec
    exact spec.sound fields' message
      (fun _ hLookup => admitted_of_holds hHolds hAdmitted hLookup)
      ((layout.yields_iff fields' message).mp hRead spec hSpec)
  -- The two tables have the same entries at every known key, and no others.
  have hMem : ∀ entry, entry ∈ table ↔ entry ∈ layout.entries message := by
    intro entry
    obtain ⟨key, content⟩ := entry
    have hAt : key ∈ layout.known →
        ((key, content) ∈ table ↔ (key, content) ∈ layout.entries message) := by
      intro hKey
      obtain ⟨spec, hSpec, rfl⟩ := List.mem_map.mp hKey
      rw [← hHolds, (hSound spec hSpec).1, image_iff hSpec]
    constructor
    · intro hEntry
      have hField : key ∈ fields' :=
        hHolds.mem_iff.mpr (List.mem_map_of_mem (f := Prod.fst) hEntry)
      exact (hAt (hKnown key hField)).mp hEntry
    · intro hEntry
      have hKey : key ∈ layout.known :=
        entries_known (List.mem_map_of_mem (f := Prod.fst) hEntry)
      exact (hAt hKey).mpr hEntry
  have hPerm : table.Perm (layout.entries message) :=
    (List.perm_ext_iff_of_nodup (List.Nodup.of_map _ hNodup)
      (List.Nodup.of_map _ (entries_nodup message))).mpr hMem
  obtain ⟨depth, hProfile⟩ := hAdmitted
  refine ⟨?_, fun spec hSpec => (hSound spec hSpec).2⟩
  rw [← normalize_record_congr_perm hNodup hPerm, normalize_eq_self hProfile]

end Layout

end Protocol
end RootPermit
