import Mathlib.Algebra.Order.BigOperators.Group.List
import RootPermit.Protocol.CborProfile

/-!
# The normal form computed by the CBOR encoder

The encoder writes the entries of every map in the order of their encoded keys.
`normalize` performs that reordering on values, so that what is written is the
reference encoding of the normal form, and what is read back is the normal form
itself.

* `referenceEncoding_append_inj` — encodings of representable values are
  uniquely decodable;
* `encode_eq_ok_iff` — a value can be encoded exactly when its normal form is
  in the profile;
* `decode_encode` — the normal form is what travels on the wire.
-/

namespace RootPermit
namespace Protocol

open Foundation

/-! ### The normal form -/

mutual

/-- A value with the entries of every map, at every depth, in the order of
their encoded keys. -/
def normalize : CborValue → CborValue
  | .unsigned value => .unsigned value
  | .negative value => .negative value
  | .bytes value => .bytes value
  | .text value => .text value
  | .array values => .array (normalizeItems values)
  | .map entries => .map (sortByKey entryKey (normalizeEntries entries))
  | .tag tag value => .tag tag (normalize value)
  | .bool value => .bool value
  | .null => .null

def normalizeItems : List CborValue → List CborValue
  | [] => []
  | value :: rest => normalize value :: normalizeItems rest

def normalizeEntries : List (CborValue × CborValue) → List (CborValue × CborValue)
  | [] => []
  | (key, value) :: rest => (normalize key, normalize value) :: normalizeEntries rest

end

/-- The normal form of the parts of one entry. -/
def normalizeEntry (entry : CborValue × CborValue) : CborValue × CborValue :=
  (normalize entry.1, normalize entry.2)

theorem normalizeItems_eq_map (values : List CborValue) :
    normalizeItems values = values.map normalize := by
  induction values with
  | nil => rfl
  | cons value rest ih => rw [normalizeItems, List.map_cons, ih]

theorem normalizeEntries_eq_map (entries : List (CborValue × CborValue)) :
    normalizeEntries entries = entries.map normalizeEntry := by
  induction entries with
  | nil => rfl
  | cons entry rest ih =>
      rw [normalizeEntries, List.map_cons, ih, normalizeEntry]

/-- The bytes by which an entry of any value is ordered: its key is encoded in
normal form. -/
def writtenKey (entry : CborValue × CborValue) : Bytes :=
  referenceEncoding (normalize entry.1)

theorem normalize_array (values : List CborValue) :
    normalize (.array values) = .array (values.map normalize) := by
  rw [normalize, normalizeItems_eq_map]

theorem normalize_map (entries : List (CborValue × CborValue)) :
    normalize (.map entries) =
      .map ((sortByKey writtenKey entries).map normalizeEntry) := by
  have hSort : (sortByKey writtenKey entries).map normalizeEntry =
      sortByKey entryKey (entries.map normalizeEntry) :=
    map_sortByKey normalizeEntry fun _ _ => rfl
  rw [normalize, normalizeEntries_eq_map, hSort]

/-- A value of the profile is its own normal form. -/
theorem normalize_eq_self {limits : CborLimits} {depth : Nat} {value : CborValue}
    (h : InProfile limits depth value) : normalize value = value := by
  induction h with
  | array hDepth values hLength hItems ih =>
      rw [normalize_array]
      congr 1
      exact (List.map_congr_left ih).trans (List.map_id values)
  | map hDepth entries hLength hKeys hValues hOrder ihKeys ihValues =>
      have hSame : entries.map normalizeEntry = entries := by
        refine (List.map_congr_left ?_).trans (List.map_id entries)
        intro entry hEntry
        exact Prod.ext (ihKeys entry hEntry) (ihValues entry hEntry)
      rw [normalize, normalizeEntries_eq_map, hSame, hOrder.sortByKey_eq]
  | tag hDepth value hValue ih => rw [normalize, ih]
  | _ => rfl

theorem normalize_map_congr_perm {entries others : List (CborValue × CborValue)}
    (hPerm : entries.Perm others) (hDistinct : (entries.map writtenKey).Nodup) :
    normalize (.map entries) = normalize (.map others) := by
  rw [normalize_map, normalize_map, sortByKey_congr_perm hPerm hDistinct]

/-! ### Equality up to the order of map entries -/

/-- Two values that differ only in the order in which the entries of their maps
are listed, at any depth: the congruence generated by the permutations. -/
inductive Reordered : CborValue → CborValue → Prop
  | refl (value : CborValue) : Reordered value value
  | symm {first second : CborValue} (h : Reordered first second) :
      Reordered second first
  | trans {first second third : CborValue} (h : Reordered first second)
      (h' : Reordered second third) : Reordered first third
  | entries {first second : List (CborValue × CborValue)}
      (hPerm : first.Perm second) : Reordered (.map first) (.map second)
  | item (before after : List CborValue) {value value' : CborValue}
      (h : Reordered value value') :
      Reordered (.array (before ++ value :: after))
        (.array (before ++ value' :: after))
  | key (before after : List (CborValue × CborValue))
      {key key' : CborValue} (value : CborValue) (h : Reordered key key') :
      Reordered (.map (before ++ (key, value) :: after))
        (.map (before ++ (key', value) :: after))
  | value (before after : List (CborValue × CborValue))
      (key : CborValue) {value value' : CborValue} (h : Reordered value value') :
      Reordered (.map (before ++ (key, value) :: after))
        (.map (before ++ (key, value') :: after))
  | tag (tag : UInt64) {value value' : CborValue} (h : Reordered value value') :
      Reordered (.tag tag value) (.tag tag value')

theorem Reordered.items {values : List CborValue}
    (h : ∀ value ∈ values, Reordered value (normalize value))
    (before : List CborValue) :
    Reordered (.array (before ++ values))
      (.array (before ++ values.map normalize)) := by
  induction values generalizing before with
  | nil => exact .refl _
  | cons value rest ih =>
      obtain ⟨hValue, hRest⟩ := List.forall_mem_cons.mp h
      have hStep := ih hRest (before ++ [normalize value])
      simp only [List.append_assoc, List.singleton_append] at hStep
      exact (Reordered.item before rest hValue).trans hStep

theorem Reordered.parts {entries : List (CborValue × CborValue)}
    (hKeys : ∀ entry ∈ entries, Reordered entry.1 (normalize entry.1))
    (hValues : ∀ entry ∈ entries, Reordered entry.2 (normalize entry.2))
    (before : List (CborValue × CborValue)) :
    Reordered (.map (before ++ entries))
      (.map (before ++ entries.map normalizeEntry)) := by
  induction entries generalizing before with
  | nil => exact .refl _
  | cons entry rest ih =>
      obtain ⟨hKey, hKeys⟩ := List.forall_mem_cons.mp hKeys
      obtain ⟨hValue, hValues⟩ := List.forall_mem_cons.mp hValues
      have hStep := ih hKeys hValues (before ++ [normalizeEntry entry])
      simp only [List.append_assoc, List.singleton_append] at hStep
      have hFirst := Reordered.key before rest entry.2 hKey
      have hSecond := Reordered.value before rest (normalize entry.1) hValue
      exact (hFirst.trans hSecond).trans hStep

/-- Normalizing only reorders map entries. -/
theorem reordered_normalize (value : CborValue) :
    Reordered value (normalize value) := by
  induction value using CborValue.induct with
  | array values ih =>
      rw [normalize_array]
      exact Reordered.items ih []
  | map entries ihKeys ihValues =>
      rw [normalize_map]
      have hSorted : Reordered (.map entries)
          (.map (sortByKey writtenKey entries)) :=
        .entries (sortByKey_perm writtenKey entries).symm
      have hKeys : ∀ entry ∈ sortByKey writtenKey entries,
          Reordered entry.1 (normalize entry.1) :=
        fun entry hEntry => ihKeys entry (mem_sortByKey.mp hEntry)
      have hValues : ∀ entry ∈ sortByKey writtenKey entries,
          Reordered entry.2 (normalize entry.2) :=
        fun entry hEntry => ihValues entry (mem_sortByKey.mp hEntry)
      exact hSorted.trans (Reordered.parts hKeys hValues [])
  | tag tag value ih => exact .tag tag ih
  | _ => exact .refl _

theorem reordered_of_normalize_eq {first second : CborValue}
    (h : normalize first = normalize second) : Reordered first second := by
  have hSecond := reordered_normalize second
  rw [← h] at hSecond
  exact (reordered_normalize first).trans hSecond.symm

/-! ### Unique decodability of the reference encoding -/

/-- The values whose heads hold their arguments: lengths fit the head, and a
negative integer is below zero. -/
inductive Representable : CborValue → Prop
  | unsigned (value : UInt64) : Representable (.unsigned value)
  | negative (value : Int64) (hNegative : value.toInt < 0) :
      Representable (.negative value)
  | bytes (value : Bytes) (hLength : value.length < 2 ^ 64) :
      Representable (.bytes value)
  | text (value : String) (hLength : (utf8 value).length < 2 ^ 64) :
      Representable (.text value)
  | array (values : List CborValue) (hLength : values.length < 2 ^ 64)
      (hItems : ∀ value ∈ values, Representable value) :
      Representable (.array values)
  | map (entries : List (CborValue × CborValue))
      (hLength : entries.length < 2 ^ 64)
      (hKeys : ∀ entry ∈ entries, Representable entry.1)
      (hValues : ∀ entry ∈ entries, Representable entry.2) :
      Representable (.map entries)
  | tag (tag : UInt64) (value : CborValue) (hValue : Representable value) :
      Representable (.tag tag value)
  | bool (value : Bool) : Representable (.bool value)
  | null : Representable .null

theorem InProfile.representable {limits : CborLimits} {depth : Nat}
    {value : CborValue} (h : InProfile limits depth value) :
    Representable value := by
  induction h with
  | unsigned hDepth value => exact .unsigned value
  | negative hDepth value hNegative => exact .negative value hNegative
  | bytes hDepth value hLength =>
      exact .bytes value (Nat.lt_of_le_of_lt hLength (UInt64.toNat_lt _))
  | text hDepth value hLength =>
      exact .text value (Nat.lt_of_le_of_lt hLength (UInt64.toNat_lt _))
  | array hDepth values hLength hItems ih =>
      exact .array values (Nat.lt_of_le_of_lt hLength (UInt64.toNat_lt _)) ih
  | map hDepth entries hLength hKeys hValues hOrder ihKeys ihValues =>
      exact .map entries (Nat.lt_of_le_of_lt hLength (UInt64.toNat_lt _))
        ihKeys ihValues
  | tag hDepth value hValue ih => exact .tag 18 value ih
  | bool hDepth value => exact .bool value
  | null hDepth => exact .null

theorem Representable.headArgument_lt {value : CborValue}
    (h : Representable value) : headArgument value < 2 ^ 64 := by
  cases h with
  | unsigned value => exact value.toNat_lt
  | negative value hNegative =>
      have hLow : -2 ^ 63 ≤ value.toInt := value.le_toInt
      simp only [headArgument]
      omega
  | bytes value hLength => exact hLength
  | text value hLength => exact hLength
  | array values hLength => exact hLength
  | map entries hLength => exact hLength
  | tag tag value => exact tag.toNat_lt
  | bool value =>
      cases value <;> simp [headArgument]
  | null => simp [headArgument]

theorem lt_pow_headWidth {argument : Nat} (hArgument : argument < 2 ^ 64)
    (hWide : 24 ≤ argument) : argument < 256 ^ headWidth argument := by
  unfold headWidth
  split_ifs <;> omega

/-- A head determines its major type, its argument and where it ends. -/
theorem referenceHead_append_inj {major major' argument argument' : Nat}
    {rest rest' : Bytes} (hMajor : major < 8) (hMajor' : major' < 8)
    (hArgument : argument < 2 ^ 64) (hArgument' : argument' < 2 ^ 64)
    (h : referenceHead major argument ++ rest =
      referenceHead major' argument' ++ rest') :
    major = major' ∧ argument = argument' ∧ rest = rest' := by
  simp only [referenceHead, List.cons_append, List.cons.injEq] at h
  obtain ⟨hInitial, hTail⟩ := h
  have hInfo := Parser.headInfo_lt argument
  have hInfo' := Parser.headInfo_lt argument'
  have hSize : UInt8.size = 256 := rfl
  have hByte : 32 * major + headInfo argument =
      32 * major' + headInfo argument' := by
    have hToNat := congrArg UInt8.toNat hInitial
    rwa [UInt8.toNat_ofNat_of_lt' (by omega),
      UInt8.toNat_ofNat_of_lt' (by omega)] at hToNat
  have hMajorEq : major = major' := by omega
  have hInfoEq : headInfo argument = headInfo argument' := by omega
  obtain ⟨hWidth, hSmall⟩ := Parser.eq_headInfo_iff.mp hInfoEq
  obtain ⟨hWidth', hSmall'⟩ :=
    Parser.eq_headInfo_iff.mp (rfl : headInfo argument = headInfo argument)
  have hWidthEq : headWidth argument = headWidth argument' :=
    Option.some.inj (hWidth'.symm.trans hWidth)
  rw [hWidthEq] at hTail hSmall'
  obtain ⟨hBytes, hRest⟩ := List.append_inj hTail (by simp)
  refine ⟨hMajorEq, ?_, hRest⟩
  by_cases hZero : headWidth argument' = 0
  · exact (hSmall' hZero).symm.trans (hSmall hZero)
  · -- A wide head writes its argument out.
    have hWide : 24 ≤ argument := by
      rw [← hWidthEq] at hZero
      unfold headWidth at hZero
      split_ifs at hZero <;> omega
    have hWide' : 24 ≤ argument' := by
      unfold headWidth at hZero
      split_ifs at hZero <;> omega
    have hValue := congrArg beValue hBytes
    have hBound := lt_pow_headWidth hArgument hWide
    rw [hWidthEq] at hBound
    rwa [beValue_beBytes_of_lt hBound,
      beValue_beBytes_of_lt (lt_pow_headWidth hArgument' hWide')] at hValue

/-- Two values whose encodings can be continued to the same bytes are equal. -/
def DecodesUniquely (value : CborValue) : Prop :=
  Representable value → ∀ (other : CborValue) (rest rest' : Bytes),
    Representable other →
    referenceEncoding value ++ rest = referenceEncoding other ++ rest' →
    value = other ∧ rest = rest'

theorem referenceItems_append_inj {values : List CborValue}
    (hUnique : ∀ value ∈ values, DecodesUniquely value)
    (hValues : ∀ value ∈ values, Representable value)
    {others : List CborValue} (hOthers : ∀ value ∈ others, Representable value)
    (hLength : values.length = others.length) {rest rest' : Bytes}
    (h : referenceItems values ++ rest = referenceItems others ++ rest') :
    values = others ∧ rest = rest' := by
  induction values generalizing others with
  | nil =>
      cases others with
      | nil => exact ⟨rfl, by simpa [referenceItems] using h⟩
      | cons other others => simp at hLength
  | cons value values ih =>
      cases others with
      | nil => simp at hLength
      | cons other others =>
          obtain ⟨hUniqueHead, hUniqueTail⟩ := List.forall_mem_cons.mp hUnique
          obtain ⟨hHead, hTail⟩ := List.forall_mem_cons.mp hValues
          obtain ⟨hOtherHead, hOtherTail⟩ := List.forall_mem_cons.mp hOthers
          simp only [referenceItems, List.append_assoc] at h
          obtain ⟨rfl, hRest⟩ := hUniqueHead hHead other _ _ hOtherHead h
          obtain ⟨rfl, hEnd⟩ :=
            ih hUniqueTail hTail hOtherTail (by simpa using hLength) hRest
          exact ⟨rfl, hEnd⟩

theorem referenceEntries_append_inj {entries : List (CborValue × CborValue)}
    (hUniqueKeys : ∀ entry ∈ entries, DecodesUniquely entry.1)
    (hUniqueValues : ∀ entry ∈ entries, DecodesUniquely entry.2)
    (hKeys : ∀ entry ∈ entries, Representable entry.1)
    (hValues : ∀ entry ∈ entries, Representable entry.2)
    {others : List (CborValue × CborValue)}
    (hOtherKeys : ∀ entry ∈ others, Representable entry.1)
    (hOtherValues : ∀ entry ∈ others, Representable entry.2)
    (hLength : entries.length = others.length) {rest rest' : Bytes}
    (h : referenceEntries entries ++ rest = referenceEntries others ++ rest') :
    entries = others ∧ rest = rest' := by
  induction entries generalizing others with
  | nil =>
      cases others with
      | nil => exact ⟨rfl, by simpa [referenceEntries] using h⟩
      | cons other others => simp at hLength
  | cons entry entries ih =>
      cases others with
      | nil => simp at hLength
      | cons other others =>
          obtain ⟨key, value⟩ := entry
          obtain ⟨otherKey, otherValue⟩ := other
          obtain ⟨hUniqueKey, hUniqueKeys⟩ := List.forall_mem_cons.mp hUniqueKeys
          obtain ⟨hUniqueValue, hUniqueValues⟩ :=
            List.forall_mem_cons.mp hUniqueValues
          obtain ⟨hKey, hKeys⟩ := List.forall_mem_cons.mp hKeys
          obtain ⟨hValue, hValues⟩ := List.forall_mem_cons.mp hValues
          obtain ⟨hOtherKey, hOtherKeys⟩ := List.forall_mem_cons.mp hOtherKeys
          obtain ⟨hOtherValue, hOtherValues⟩ :=
            List.forall_mem_cons.mp hOtherValues
          simp only [referenceEntries, List.append_assoc] at h
          obtain ⟨hKeyEq, hRest⟩ := hUniqueKey hKey otherKey _ _ hOtherKey h
          obtain ⟨hValueEq, hRest⟩ :=
            hUniqueValue hValue otherValue _ _ hOtherValue hRest
          obtain ⟨hEntries, hEnd⟩ := ih hUniqueKeys hUniqueValues hKeys hValues
            hOtherKeys hOtherValues (by simpa using hLength) hRest
          simp only at hKeyEq hValueEq
          rw [hKeyEq, hValueEq, hEntries]
          exact ⟨rfl, hEnd⟩

/-- Two encodings that continue to the same bytes agree on their heads. -/
theorem same_head {value other : CborValue} {rest rest' : Bytes}
    (hValue : Representable value) (hOther : Representable other)
    (h : referenceEncoding value ++ rest = referenceEncoding other ++ rest') :
    majorType value = majorType other ∧
      headArgument value = headArgument other ∧
      content value ++ rest = content other ++ rest' := by
  rw [referenceEncoding_eq value, referenceEncoding_eq other,
    List.append_assoc, List.append_assoc] at h
  exact referenceHead_append_inj (Parser.majorType_lt value)
    (Parser.majorType_lt other) hValue.headArgument_lt hOther.headArgument_lt h

/-- The reference encoding is uniquely decodable.  The heads agree first, so
the two values have the same constructor and the same lengths. -/
theorem referenceEncoding_append_inj (value : CborValue) :
    DecodesUniquely value := by
  induction value using CborValue.induct with
  | unsigned value =>
      intro hValue other rest rest' hOther h
      obtain ⟨hMajor, hArgument, hContent⟩ := same_head hValue hOther h
      cases other <;> simp only [majorType, reduceCtorEq] at hMajor
      exact ⟨congrArg _ (UInt64.toNat_inj.mp hArgument), hContent⟩
  | negative value =>
      intro hValue other rest rest' hOther h
      obtain ⟨hMajor, hArgument, hContent⟩ := same_head hValue hOther h
      cases other <;> simp only [majorType, reduceCtorEq, Nat.reduceEqDiff] at hMajor
      rename_i other
      cases hValue with
      | negative _ hNegative =>
          cases hOther with
          | negative _ hNegative' =>
              simp only [headArgument] at hArgument
              have hSame : value.toInt = other.toInt := by omega
              exact ⟨congrArg _ (Int64.toInt_inj.mp hSame), hContent⟩
  | bytes value =>
      intro hValue other rest rest' hOther h
      obtain ⟨hMajor, hArgument, hContent⟩ := same_head hValue hOther h
      cases other <;> simp only [majorType, reduceCtorEq, Nat.reduceEqDiff] at hMajor
      obtain ⟨hBytes, hRest⟩ := List.append_inj hContent hArgument
      exact ⟨congrArg _ hBytes, hRest⟩
  | text value =>
      intro hValue other rest rest' hOther h
      obtain ⟨hMajor, hArgument, hContent⟩ := same_head hValue hOther h
      cases other <;> simp only [majorType, reduceCtorEq, Nat.reduceEqDiff] at hMajor
      obtain ⟨hBytes, hRest⟩ := List.append_inj hContent hArgument
      exact ⟨congrArg _ (utf8_injective hBytes), hRest⟩
  | array values ih =>
      intro hValue other rest rest' hOther h
      obtain ⟨hMajor, hArgument, hContent⟩ := same_head hValue hOther h
      cases other <;> simp only [majorType, reduceCtorEq, Nat.reduceEqDiff] at hMajor
      cases hValue with
      | array _ _ hItems =>
          cases hOther with
          | array _ _ hItems' =>
              obtain ⟨hItemsEq, hRest⟩ := referenceItems_append_inj ih hItems
                hItems' hArgument hContent
              exact ⟨congrArg _ hItemsEq, hRest⟩
  | map entries ihKeys ihValues =>
      intro hValue other rest rest' hOther h
      obtain ⟨hMajor, hArgument, hContent⟩ := same_head hValue hOther h
      cases other <;> simp only [majorType, reduceCtorEq, Nat.reduceEqDiff] at hMajor
      cases hValue with
      | map _ _ hKeys hValues =>
          cases hOther with
          | map _ _ hKeys' hValues' =>
              obtain ⟨hEntries, hRest⟩ := referenceEntries_append_inj ihKeys
                ihValues hKeys hValues hKeys' hValues' hArgument hContent
              exact ⟨congrArg _ hEntries, hRest⟩
  | tag tag value ih =>
      intro hValue other rest rest' hOther h
      obtain ⟨hMajor, hArgument, hContent⟩ := same_head hValue hOther h
      cases other <;> simp only [majorType, reduceCtorEq, Nat.reduceEqDiff] at hMajor
      cases hValue with
      | tag _ _ hInner =>
          cases hOther with
          | tag _ _ hInner' =>
              obtain ⟨rfl, hRest⟩ := ih hInner _ _ _ hInner' hContent
              have hTag := UInt64.toNat_inj.mp hArgument
              subst hTag
              exact ⟨rfl, hRest⟩
  | bool value =>
      intro hValue other rest rest' hOther h
      obtain ⟨hMajor, hArgument, hContent⟩ := same_head hValue hOther h
      cases other <;> simp only [majorType, reduceCtorEq, Nat.reduceEqDiff] at hMajor
      -- Booleans and null share their major type; the argument tells them apart.
      · rename_i other
        cases value <;> cases other <;> simp [headArgument] at hArgument ⊢
        all_goals exact hContent
      · cases value <;> simp [headArgument] at hArgument
  | null =>
      intro hValue other rest rest' hOther h
      obtain ⟨hMajor, hArgument, hContent⟩ := same_head hValue hOther h
      cases other <;> simp only [majorType, reduceCtorEq, Nat.reduceEqDiff] at hMajor
      · rename_i other
        cases other <;> simp [headArgument] at hArgument
      · exact ⟨rfl, hContent⟩

theorem referenceEncoding_injective {value other : CborValue}
    (hValue : Representable value) (hOther : Representable other)
    (h : referenceEncoding value = referenceEncoding other) : value = other :=
  (referenceEncoding_append_inj value hValue other [] [] hOther (by rw [h])).1

/-! ### What the encoder appends -/

theorem shift_or_eq {major info : UInt8} (hMajor : major.toNat < 8)
    (hInfo : info.toNat < 32) :
    (major <<< 5) ||| info = UInt8.ofNat (32 * major.toNat + info.toNat) := by
  have hSize : UInt8.size = 256 := rfl
  have hShift : (major <<< 5).toNat = major.toNat <<< 5 := by
    rw [UInt8.toNat_shiftLeft]
    change major.toNat <<< 5 % 2 ^ 8 = _
    rw [Nat.shiftLeft_eq]
    omega
  rw [← UInt8.toNat_inj, UInt8.toNat_or, hShift,
    UInt8.toNat_ofNat_of_lt' (by omega),
    ← Nat.shiftLeft_add_eq_or_of_lt (i := 5) hInfo, Nat.shiftLeft_eq]
  omega

theorem writeHead_eq {major : UInt8} (hMajor : major.toNat < 8)
    (value : UInt64) :
    writeHead major value = referenceHead major.toNat value.toNat := by
  have hHead : ∀ info : UInt8, info.toNat < 32 →
      (major <<< 5) ||| info = UInt8.ofNat (32 * major.toNat + info.toNat) :=
    fun info hInfo => shift_or_eq hMajor hInfo
  have hDrop : ∀ extra width, 8 = extra + width →
      (beBytes 8 value.toNat).drop extra = beBytes width value.toNat := by
    intro extra width hSplit
    rw [hSplit, drop_beBytes]
  have hLast : beBytes 1 value.toNat = [UInt8.ofNat value.toNat] := by
    simp [beBytes]
  unfold writeHead referenceHead headInfo headWidth
  simp only [UInt64.le_iff_toNat_le]
  rw [hDrop 7 1 rfl, hDrop 6 2 rfl, hDrop 4 4 rfl]
  change (if value.toNat ≤ 23 then _ else if value.toNat ≤ 255 then _
    else if value.toNat ≤ 65535 then _
    else if value.toNat ≤ 4294967295 then _ else _) = _
  by_cases hTiny : value.toNat < 24
  · have hSize : UInt8.size = 256 := rfl
    have hInfo : (UInt8.ofNat value.toNat).toNat = value.toNat :=
      UInt8.toNat_ofNat_of_lt' (by omega)
    rw [if_pos (by omega), if_pos hTiny, if_pos hTiny, hLast, List.map_singleton,
      hHead _ (by omega), hInfo, beBytes]
  by_cases hByte : value.toNat < 2 ^ 8
  · rw [if_neg (by omega), if_pos (by omega), if_neg hTiny, if_pos hByte,
      if_neg hTiny, if_pos hByte, hHead 24 (by decide)]
    rfl
  by_cases hShort : value.toNat < 2 ^ 16
  · rw [if_neg (by omega), if_neg (by omega), if_pos (by omega), if_neg hTiny,
      if_neg hByte, if_pos hShort, if_neg hTiny, if_neg hByte, if_pos hShort,
      hHead 25 (by decide)]
    rfl
  by_cases hWord : value.toNat < 2 ^ 32
  · rw [if_neg (by omega), if_neg (by omega), if_neg (by omega),
      if_pos (by omega), if_neg hTiny, if_neg hByte, if_neg hShort,
      if_pos hWord, if_neg hTiny, if_neg hByte, if_neg hShort, if_pos hWord,
      hHead 26 (by decide)]
    rfl
  · rw [if_neg (by omega), if_neg (by omega), if_neg (by omega),
      if_neg (by omega), if_neg hTiny, if_neg hByte, if_neg hShort,
      if_neg hWord, if_neg hTiny, if_neg hByte, if_neg hShort, if_neg hWord,
      hHead 27 (by decide)]
    rfl

theorem lengthU64_eq_ok_iff {count : Nat} {length : UInt64} :
    lengthU64 count = .ok length ↔ length.toNat = count := by
  rw [lengthU64, orFault_eq_ok_iff, toU64?_eq_some_iff, Int.ofNat_inj]

/-- The bytes appended for an entry once its key has been encoded. -/
def encodedEntry (entry : CborValue × CborValue) : EncodedEntry where
  sortKey := writtenKey entry
  key := encodeInto entry.1
  value := encodeInto entry.2

/-- `encode_into` appends the reference encoding of a representable normal
form, if it appends anything. -/
def WritesNormalForm (value : CborValue) : Prop :=
  ∀ output, encodeInto value = .ok output →
    output = referenceEncoding (normalize value) ∧
      Representable (normalize value)

theorem checked_eq_ok_iff {appended : Except EncodeError Bytes}
    {output : Bytes} :
    checked appended = .ok output ↔
      appended = .ok output ∧ ∃ value, decode output = .ok value := by
  simp only [checked, bind_eq_ok_iff, mapError_eq_ok_iff, pure_eq_ok,
    Except.ok.injEq]
  constructor
  · intro h
    obtain ⟨_, hAppended, value, hDecode, rfl⟩ := h
    exact ⟨hAppended, value, hDecode⟩
  · intro h
    obtain ⟨hAppended, value, hDecode⟩ := h
    exact ⟨output, hAppended, value, hDecode, rfl⟩

theorem encodeItems_eq_ok {values : List CborValue}
    (hWrites : ∀ value ∈ values, WritesNormalForm value) {output : Bytes}
    (h : encodeItems values = .ok output) :
    output = referenceItems (values.map normalize) ∧
      ∀ value ∈ values.map normalize, Representable value := by
  induction values generalizing output with
  | nil =>
      simp only [encodeItems, Except.ok.injEq] at h
      subst h
      exact ⟨rfl, by simp⟩
  | cons value rest ih =>
      obtain ⟨hHead, hTail⟩ := List.forall_mem_cons.mp hWrites
      simp only [encodeItems, bind_eq_ok_iff, pure_eq_ok, Except.ok.injEq] at h
      obtain ⟨item, hItem, items, hItems, rfl⟩ := h
      obtain ⟨rfl, hValue⟩ := hHead item hItem
      obtain ⟨rfl, hRest⟩ := ih hTail hItems
      exact ⟨rfl, List.forall_mem_cons.mpr ⟨hValue, hRest⟩⟩

theorem encodeEntries_eq_ok {entries : List (CborValue × CborValue)}
    (hWrites : ∀ entry ∈ entries, WritesNormalForm entry.1)
    {encoded : List EncodedEntry} (h : encodeEntries entries = .ok encoded) :
    encoded = entries.map encodedEntry := by
  induction entries generalizing encoded with
  | nil =>
      simp only [encodeEntries, Except.ok.injEq] at h
      exact h.symm
  | cons entry rest ih =>
      obtain ⟨hHead, hTail⟩ := List.forall_mem_cons.mp hWrites
      obtain ⟨key, value⟩ := entry
      simp only [encodeEntries, bind_eq_ok_iff, pure_eq_ok, Except.ok.injEq,
        checked_eq_ok_iff] at h
      obtain ⟨sortKey, ⟨hKey, -⟩, entries, hEntries, rfl⟩ := h
      obtain ⟨rfl, -⟩ := hHead sortKey hKey
      rw [ih hTail hEntries]
      rfl

theorem writeEntries_eq_ok {entries : List (CborValue × CborValue)}
    (hKeys : ∀ entry ∈ entries, WritesNormalForm entry.1)
    (hValues : ∀ entry ∈ entries, WritesNormalForm entry.2) {output : Bytes}
    (h : writeEntries (entries.map encodedEntry) = .ok output) :
    output = referenceEntries (entries.map normalizeEntry) ∧
      (∀ entry ∈ entries.map normalizeEntry, Representable entry.1) ∧
      ∀ entry ∈ entries.map normalizeEntry, Representable entry.2 := by
  induction entries generalizing output with
  | nil =>
      simp only [List.map_nil, writeEntries, Except.ok.injEq] at h
      subst h
      exact ⟨rfl, by simp, by simp⟩
  | cons entry rest ih =>
      obtain ⟨hKey, hKeys⟩ := List.forall_mem_cons.mp hKeys
      obtain ⟨hValue, hValues⟩ := List.forall_mem_cons.mp hValues
      simp only [List.map_cons, writeEntries, bind_eq_ok_iff, pure_eq_ok,
        Except.ok.injEq] at h
      obtain ⟨key, hKeyOk, value, hValueOk, items, hItems, rfl⟩ := h
      obtain ⟨rfl, hKeyRep⟩ := hKey key hKeyOk
      obtain ⟨rfl, hValueRep⟩ := hValue value hValueOk
      obtain ⟨rfl, hRestKeys, hRestValues⟩ := ih hKeys hValues hItems
      exact ⟨rfl, List.forall_mem_cons.mpr ⟨hKeyRep, hRestKeys⟩,
        List.forall_mem_cons.mpr ⟨hValueRep, hRestValues⟩⟩

/-- The encoder writes the reference encoding of the normal form. -/
theorem encodeInto_writes (value : CborValue) : WritesNormalForm value := by
  induction value using CborValue.induct with
  | unsigned value =>
      intro output h
      simp only [encodeInto, Except.ok.injEq] at h
      rw [← h, writeHead_eq (by decide)]
      exact ⟨rfl, .unsigned value⟩
  | negative value =>
      intro output h
      simp only [encodeInto, bind_eq_ok_iff, orFault_eq_ok_iff,
        toU64?_eq_some_iff, pure_eq_ok, Except.ok.injEq] at h
      obtain ⟨encoded, hEncoded, rfl⟩ := h
      have hNegative : value.toInt < 0 := by omega
      have hArgument : encoded.toNat = (-1 - value.toInt).toNat := by omega
      rw [writeHead_eq (by decide), hArgument]
      exact ⟨rfl, .negative value hNegative⟩
  | bytes value =>
      intro output h
      simp only [encodeInto, bind_eq_ok_iff, lengthU64_eq_ok_iff, pure_eq_ok,
        Except.ok.injEq] at h
      obtain ⟨length, hLength, rfl⟩ := h
      rw [writeHead_eq (by decide), hLength]
      exact ⟨rfl, .bytes value (hLength ▸ length.toNat_lt)⟩
  | text value =>
      intro output h
      simp only [encodeInto, bind_eq_ok_iff, lengthU64_eq_ok_iff, pure_eq_ok,
        Except.ok.injEq] at h
      obtain ⟨length, hLength, rfl⟩ := h
      rw [writeHead_eq (by decide), hLength]
      exact ⟨rfl, .text value (hLength ▸ length.toNat_lt)⟩
  | array values ih =>
      intro output h
      simp only [encodeInto, bind_eq_ok_iff, lengthU64_eq_ok_iff, pure_eq_ok,
        Except.ok.injEq] at h
      obtain ⟨length, hLength, items, hItems, rfl⟩ := h
      obtain ⟨rfl, hValues⟩ := encodeItems_eq_ok ih hItems
      rw [writeHead_eq (by decide), hLength, normalize_array, referenceEncoding,
        List.length_map]
      refine ⟨rfl, .array _ ?_ hValues⟩
      rw [List.length_map, ← hLength]
      exact length.toNat_lt
  | map entries ihKeys ihValues =>
      intro output h
      simp only [encodeInto, bind_eq_ok_iff, lengthU64_eq_ok_iff, pure_eq_ok,
        Except.ok.injEq, rejectIf_eq_ok_iff] at h
      obtain ⟨encoded, hEncoded, _, -, length, hLength, items, hItems, rfl⟩ := h
      -- The encoder sorts encoded keys, the normal form sorts entries.
      have hMap := encodeEntries_eq_ok ihKeys hEncoded
      subst hMap
      have hSort : sortByKey EncodedEntry.sortKey (entries.map encodedEntry) =
          (sortByKey writtenKey entries).map encodedEntry :=
        (map_sortByKey encodedEntry fun _ _ => rfl).symm
      rw [hSort] at hItems hLength
      obtain ⟨rfl, hKeys, hValues⟩ := writeEntries_eq_ok
        (fun entry hEntry => ihKeys entry (mem_sortByKey.mp hEntry))
        (fun entry hEntry => ihValues entry (mem_sortByKey.mp hEntry)) hItems
      simp only [List.length_map] at hLength
      rw [writeHead_eq (by decide), hLength, normalize_map, referenceEncoding,
        List.length_map]
      refine ⟨rfl, .map _ ?_ hKeys hValues⟩
      rw [List.length_map, ← hLength]
      exact length.toNat_lt
  | tag tag value ih =>
      intro output h
      simp only [encodeInto, bind_eq_ok_iff, pure_eq_ok, Except.ok.injEq] at h
      obtain ⟨_, -, item, hItem, rfl⟩ := h
      obtain ⟨rfl, hValue⟩ := ih item hItem
      rw [writeHead_eq (by decide), normalize, referenceEncoding]
      exact ⟨rfl, .tag tag _ hValue⟩
  | bool value =>
      intro output h
      cases value <;> simp only [encodeInto, Except.ok.injEq] at h <;> subst h
      · exact ⟨rfl, .bool false⟩
      · exact ⟨rfl, .bool true⟩
  | null =>
      intro output h
      simp only [encodeInto, Except.ok.injEq] at h
      subst h
      exact ⟨rfl, .null⟩

/-! ### What the encoder accepts -/

theorem InProfile.mono {limits : CborLimits} {depth shallow : Nat}
    {value : CborValue} (h : InProfile limits depth value)
    (hShallow : shallow ≤ depth) : InProfile limits shallow value := by
  induction h generalizing shallow with
  | unsigned hDepth value => exact .unsigned (hShallow.trans hDepth) value
  | negative hDepth value hNegative =>
      exact .negative (hShallow.trans hDepth) value hNegative
  | bytes hDepth value hLength =>
      exact .bytes (hShallow.trans hDepth) value hLength
  | text hDepth value hLength =>
      exact .text (hShallow.trans hDepth) value hLength
  | array hDepth values hLength hItems ih =>
      exact .array (hShallow.trans hDepth) values hLength
        fun value hValue => ih value hValue (Nat.succ_le_succ hShallow)
  | map hDepth entries hLength hKeys hValues hOrder ihKeys ihValues =>
      exact .map (hShallow.trans hDepth) entries hLength
        (fun entry hEntry => ihKeys entry hEntry (Nat.succ_le_succ hShallow))
        (fun entry hEntry => ihValues entry hEntry (Nat.succ_le_succ hShallow))
        hOrder
  | tag hDepth value hValue ih =>
      exact .tag (hShallow.trans hDepth) value (ih (Nat.succ_le_succ hShallow))
  | bool hDepth value => exact .bool (hShallow.trans hDepth) value
  | null hDepth => exact .null (hShallow.trans hDepth)

theorem decode_eq_ok_iff {input : Bytes} {value : CborValue} :
    decode input = .ok value ↔
      input.length ≤ CborLimits.default.maxMessageBytes.toNat ∧
        InProfile .default 0 value ∧ input = referenceEncoding value := by
  rw [decode, decodeWithLimits_eq_ok_iff, and_comm (a := input = _)]

theorem hasDuplicateKey_eq_false {entries : List EncodedEntry}
    (h : KeysIncrease EncodedEntry.sortKey entries) :
    hasDuplicateKey entries = false := by
  induction entries with
  | nil => rfl
  | cons first rest ih =>
      cases rest with
      | nil => rfl
      | cons second rest =>
          obtain ⟨hFirst, hRest⟩ := List.pairwise_cons.mp h
          have hNe := (hFirst second (by simp)).ne
          rw [hasDuplicateKey, ih hRest, Bool.or_false, beq_eq_false_iff_ne]
          exact hNe

/-- A value whose normal form is admitted and fits a message is written. -/
def WritesAdmitted (value : CborValue) : Prop :=
  ∀ depth, InProfile .default depth (normalize value) →
    (referenceEncoding (normalize value)).length ≤
      CborLimits.default.maxMessageBytes.toNat →
    encodeInto value = .ok (referenceEncoding (normalize value))

theorem length_le_referenceItems {values : List CborValue} {value : CborValue}
    (h : value ∈ values) :
    (referenceEncoding value).length ≤ (referenceItems values).length := by
  rw [referenceItems_eq_flatMap, List.length_flatMap]
  exact List.le_sum_of_mem (List.mem_map_of_mem h)

theorem length_le_referenceEntries {entries : List (CborValue × CborValue)}
    {entry : CborValue × CborValue} (h : entry ∈ entries) :
    (referenceEncoding entry.1).length + (referenceEncoding entry.2).length ≤
      (referenceEntries entries).length := by
  induction entries with
  | nil => cases h
  | cons first rest ih =>
      obtain ⟨key, value⟩ := first
      simp only [referenceEntries, List.length_append]
      rcases List.mem_cons.mp h with rfl | hRest
      · simp only
        omega
      · have hLength := ih hRest
        omega

theorem encodeItems_admitted {values : List CborValue}
    (h : ∀ value ∈ values,
      encodeInto value = .ok (referenceEncoding (normalize value))) :
    encodeItems values = .ok (referenceItems (values.map normalize)) := by
  induction values with
  | nil => rfl
  | cons value rest ih =>
      obtain ⟨hValue, hRest⟩ := List.forall_mem_cons.mp h
      rw [encodeItems, hValue, ok_bind, ih hRest, ok_bind]
      rfl

theorem encodeEntries_admitted {entries : List (CborValue × CborValue)}
    (h : ∀ entry ∈ entries,
      checked (encodeInto entry.1) = .ok (writtenKey entry)) :
    encodeEntries entries = .ok (entries.map encodedEntry) := by
  induction entries with
  | nil => rfl
  | cons entry rest ih =>
      obtain ⟨hEntry, hRest⟩ := List.forall_mem_cons.mp h
      obtain ⟨key, value⟩ := entry
      rw [encodeEntries, hEntry, ok_bind, ih hRest, ok_bind]
      rfl

theorem writeEntries_admitted {entries : List (CborValue × CborValue)}
    (hKeys : ∀ entry ∈ entries,
      encodeInto entry.1 = .ok (referenceEncoding (normalize entry.1)))
    (hValues : ∀ entry ∈ entries,
      encodeInto entry.2 = .ok (referenceEncoding (normalize entry.2))) :
    writeEntries (entries.map encodedEntry) =
      .ok (referenceEntries (entries.map normalizeEntry)) := by
  induction entries with
  | nil => rfl
  | cons entry rest ih =>
      obtain ⟨hKey, hKeys⟩ := List.forall_mem_cons.mp hKeys
      obtain ⟨hValue, hValues⟩ := List.forall_mem_cons.mp hValues
      rw [List.map_cons, writeEntries, ih hKeys hValues, encodedEntry, hKey,
        ok_bind, hValue, ok_bind, ok_bind]
      rfl

theorem lengthU64_eq_ok {count : Nat} (h : count < 2 ^ 64) :
    ∃ length : UInt64, lengthU64 count = .ok length ∧ length.toNat = count := by
  have hCount : (UInt64.ofNat count).toNat = count :=
    UInt64.toNat_ofNat_of_lt' h
  exact ⟨_, lengthU64_eq_ok_iff.mpr hCount, hCount⟩

/-- A key is encoded on its own, at the root, and read back. -/
theorem checked_encodeInto {value : CborValue} {depth : Nat}
    (hProfile : InProfile .default depth (normalize value))
    (hSize : (referenceEncoding (normalize value)).length ≤
      CborLimits.default.maxMessageBytes.toNat)
    (hWritten : encodeInto value = .ok (referenceEncoding (normalize value))) :
    checked (encodeInto value) = .ok (referenceEncoding (normalize value)) :=
  checked_eq_ok_iff.mpr ⟨hWritten, normalize value,
    decode_eq_ok_iff.mpr ⟨hSize, hProfile.mono (Nat.zero_le _), rfl⟩⟩

theorem negative_admitted (value : Int64) : WritesAdmitted (.negative value) := by
  intro depth hProfile hSize
  cases hProfile with
  | negative hDepth _ hNegative =>
      have hLow : -2 ^ 63 ≤ value.toInt := value.le_toInt
      obtain ⟨encoded, hEncoded⟩ : ∃ encoded : UInt64,
          (encoded.toNat : Int) = -1 - value.toInt := by
        refine ⟨UInt64.ofNat (-1 - value.toInt).toNat, ?_⟩
        rw [UInt64.toNat_ofNat_of_lt' (by
          have hWide : UInt64.size = 2 ^ 64 := rfl
          omega)]
        omega
      rw [encodeInto, toU64?_eq_some_iff.mpr hEncoded]
      simp only [orFault, ok_bind, pure_eq_ok]
      rw [writeHead_eq (by decide), normalize, referenceEncoding, ← hEncoded]
      rfl

theorem array_admitted {values : List CborValue}
    (ih : ∀ value ∈ values, WritesAdmitted value) :
    WritesAdmitted (.array values) := by
  intro depth hProfile hSize
  obtain ⟨length, hOk, hLength⟩ :=
    lengthU64_eq_ok hProfile.representable.headArgument_lt
  rw [normalize_array] at hProfile hSize hOk hLength ⊢
  rw [headArgument, List.length_map] at hOk hLength
  rw [referenceEncoding, List.length_append] at hSize
  cases hProfile with
  | array hDepth _ hCount hItems =>
      -- An item is shorter than the array around it.
      have hWritten : ∀ value ∈ values, encodeInto value =
          .ok (referenceEncoding (normalize value)) := by
        intro value hValue
        have hMem := List.mem_map_of_mem (f := normalize) hValue
        have hPart := length_le_referenceItems hMem
        exact ih value hValue _ (hItems _ hMem) (by omega)
      rw [encodeInto, hOk, ok_bind, encodeItems_admitted hWritten, ok_bind,
        writeHead_eq (by decide), hLength, referenceEncoding,
        List.length_map]
      rfl

theorem map_admitted {entries : List (CborValue × CborValue)}
    (ihKeys : ∀ entry ∈ entries, WritesAdmitted entry.1)
    (ihValues : ∀ entry ∈ entries, WritesAdmitted entry.2) :
    WritesAdmitted (.map entries) := by
  intro depth hProfile hSize
  obtain ⟨length, hOk, hLength⟩ :=
    lengthU64_eq_ok hProfile.representable.headArgument_lt
  rw [normalize_map] at hProfile hSize hOk hLength ⊢
  rw [headArgument, List.length_map, length_sortByKey] at hOk hLength
  rw [referenceEncoding, List.length_append] at hSize
  cases hProfile with
  | map hDepth _ hCount hKeys hValues hOrder =>
      have hMem : ∀ entry ∈ entries, normalizeEntry entry ∈
          (sortByKey writtenKey entries).map normalizeEntry :=
        fun entry hEntry => List.mem_map_of_mem (mem_sortByKey.mpr hEntry)
      -- An entry is shorter than the map around it.
      have hPart : ∀ entry ∈ entries,
          (referenceEncoding (normalize entry.1)).length ≤
              CborLimits.default.maxMessageBytes.toNat ∧
            (referenceEncoding (normalize entry.2)).length ≤
              CborLimits.default.maxMessageBytes.toNat := by
        intro entry hEntry
        have hLe := length_le_referenceEntries (hMem entry hEntry)
        simp only [normalizeEntry] at hLe
        omega
      have hKeysWritten : ∀ entry ∈ entries, encodeInto entry.1 =
          .ok (referenceEncoding (normalize entry.1)) := fun entry hEntry =>
        ihKeys entry hEntry _ (hKeys _ (hMem entry hEntry)) (hPart entry hEntry).1
      have hValuesWritten : ∀ entry ∈ entries, encodeInto entry.2 =
          .ok (referenceEncoding (normalize entry.2)) := fun entry hEntry =>
        ihValues entry hEntry _ (hValues _ (hMem entry hEntry)) (hPart entry hEntry).2
      have hKeysChecked : ∀ entry ∈ entries,
          checked (encodeInto entry.1) = .ok (writtenKey entry) := fun entry hEntry =>
        checked_encodeInto (hKeys _ (hMem entry hEntry)) (hPart entry hEntry).1
          (hKeysWritten entry hEntry)
      have hSort : sortByKey EncodedEntry.sortKey (entries.map encodedEntry) =
          (sortByKey writtenKey entries).map encodedEntry :=
        (map_sortByKey encodedEntry fun _ _ => rfl).symm
      -- The order of the normal form leaves no two keys equal.
      have hDistinct : KeysIncrease EncodedEntry.sortKey
          ((sortByKey writtenKey entries).map encodedEntry) := by
        have hPairs := List.pairwise_map.mp hOrder
        exact List.pairwise_map.mpr hPairs
      rw [encodeInto, encodeEntries_admitted hKeysChecked, ok_bind]
      simp only [hSort, hasDuplicateKey_eq_false hDistinct]
      rw [writeEntries_admitted
        (fun entry hEntry => hKeysWritten entry (mem_sortByKey.mp hEntry))
        (fun entry hEntry => hValuesWritten entry (mem_sortByKey.mp hEntry)),
        List.length_map, length_sortByKey, hOk]
      simp only [rejectIf, Bool.false_eq_true, if_false, ok_bind, pure_eq_ok]
      rw [writeHead_eq (by decide), hLength, referenceEncoding,
        List.length_map, length_sortByKey]
      rfl

theorem encodeInto_admitted (value : CborValue) : WritesAdmitted value := by
  induction value using CborValue.induct with
  | unsigned value =>
      intro depth hProfile hSize
      rw [encodeInto, writeHead_eq (by decide)]
      rfl
  | negative value => exact negative_admitted value
  | bytes value =>
      intro depth hProfile hSize
      obtain ⟨length, hOk, hLength⟩ :=
        lengthU64_eq_ok hProfile.representable.headArgument_lt
      change lengthU64 value.length = _ at hOk
      rw [encodeInto, hOk, ok_bind, writeHead_eq (by decide), hLength]
      rfl
  | text value =>
      intro depth hProfile hSize
      obtain ⟨length, hOk, hLength⟩ :=
        lengthU64_eq_ok hProfile.representable.headArgument_lt
      change lengthU64 (utf8 value).length = _ at hOk
      rw [encodeInto, hOk, ok_bind, writeHead_eq (by decide), hLength]
      rfl
  | array values ih => exact array_admitted ih
  | map entries ihKeys ihValues => exact map_admitted ihKeys ihValues
  | tag tag value ih =>
      intro depth hProfile hSize
      rw [normalize, referenceEncoding, List.length_append] at hSize
      rw [normalize] at hProfile
      cases hProfile with
      | tag hDepth _ hValue =>
          rw [encodeInto, ih _ hValue (by omega)]
          simp only [rejectIf, ne_eq, not_true_eq_false, if_false, ok_bind,
            pure_eq_ok]
          rw [writeHead_eq (by decide)]
          rfl
  | bool value =>
      intro depth hProfile hSize
      cases value <;> rfl
  | null =>
      intro depth hProfile hSize
      rfl

/-- A value can be encoded exactly when its normal form is in the profile and
fits a message, and the reference encoding of that form is the result. -/
theorem encode_eq_ok_iff {value : CborValue} {output : Bytes} :
    encode value = .ok output ↔
      output.length ≤ CborLimits.default.maxMessageBytes.toNat ∧
        InProfile .default 0 (normalize value) ∧
        output = referenceEncoding (normalize value) := by
  rw [encode, checked_eq_ok_iff]
  constructor
  · intro h
    obtain ⟨hAppended, read, hRead⟩ := h
    obtain ⟨rfl, hNormal⟩ := encodeInto_writes value output hAppended
    obtain ⟨hSize, hProfile, hSame⟩ := decode_eq_ok_iff.mp hRead
    have hEq := referenceEncoding_injective hNormal hProfile.representable hSame
    rw [hEq]
    exact ⟨hEq ▸ hSize, hProfile, rfl⟩
  · intro h
    obtain ⟨hSize, hProfile, rfl⟩ := h
    exact ⟨encodeInto_admitted value 0 hProfile hSize, normalize value,
      decode_eq_ok_iff.mpr ⟨hSize, hProfile, rfl⟩⟩

/-- The normal form is what travels on the wire. -/
theorem encode_eq_ok_iff_decode {value : CborValue} {output : Bytes} :
    encode value = .ok output ↔ decode output = .ok (normalize value) := by
  rw [encode_eq_ok_iff, decode_eq_ok_iff]

/-- Re-encoding a decoded value gives the same bytes. -/
theorem encode_of_decode {input : Bytes} {value : CborValue}
    (h : decode input = .ok value) : encode value = .ok input := by
  have hNormal : normalize value = value :=
    normalize_eq_self (decode_eq_ok_iff.mp h).2.1
  rw [encode_eq_ok_iff_decode, hNormal, h]

end Protocol
end RootPermit
