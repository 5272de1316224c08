import RootPermit.Protocol.CborNormal

/-!
# Which values the CBOR encoder takes

The encoder finds out whether a value is in the profile by parsing what it wrote.
Here the same question is answered from the parts of the value, before anything is
written, and the normal form is shown to be all that the encoder keeps.

* `everywhere_normalize` — the parts of a normal form are the normal forms of the
  parts;
* `encode_eq_ok_iff_isEncodable` — the values that can be encoded;
* `Reordered.sharesNormalForm` — the order of map entries is forgotten;
* `encode_normalizes` — the three together.
-/

namespace RootPermit
namespace Protocol

open Foundation

/-! ### The parts of a value -/

/-- The parts one level deeper: the items of an array, the keys and the values of a
map, and what a tag is put on. -/
def CborValue.children : CborValue → List CborValue
  | .array values => values
  | .map entries => entries.flatMap fun entry => [entry.1, entry.2]
  | .tag _ value => [value]
  | _ => []

theorem mem_children_map {entries : List (CborValue × CborValue)}
    {child : CborValue} :
    child ∈ (CborValue.map entries).children ↔
      ∃ entry ∈ entries, child = entry.1 ∨ child = entry.2 := by
  simp [CborValue.children]

/-- Induction on a value from its parts one level deeper. -/
theorem CborValue.inductChildren {motive : CborValue → Prop}
    (step : ∀ value, (∀ child ∈ value.children, motive child) → motive value)
    (value : CborValue) : motive value := by
  induction value using CborValue.induct with
  | array values ih => exact step _ ih
  | map entries ihKeys ihValues =>
      apply step
      intro child hChild
      obtain ⟨entry, hEntry, rfl | rfl⟩ := mem_children_map.mp hChild
      · exact ihKeys entry hEntry
      · exact ihValues entry hEntry
  | tag tag value ih => exact step _ fun _ hChild => List.mem_singleton.mp hChild ▸ ih
  | _ => exact step _ fun _ hChild => nomatch hChild

/-- `part` stands `depth` levels below the root of a value, in a key or not. -/
inductive PartAt : Nat → CborValue → CborValue → Prop
  | root (value : CborValue) : PartAt 0 value value
  | deeper {depth : Nat} {part child value : CborValue}
      (hChild : child ∈ value.children) (h : PartAt depth part child) :
      PartAt (depth + 1) part value

/-- Every part of a value satisfies a condition on its depth and on itself. -/
def Everywhere (condition : Nat → CborValue → Prop) (value : CborValue) : Prop :=
  ∀ depth part, PartAt depth part value → condition depth part

theorem everywhere_iff {condition : Nat → CborValue → Prop} {value : CborValue} :
    Everywhere condition value ↔
      condition 0 value ∧ ∀ child ∈ value.children,
        Everywhere (fun depth => condition (depth + 1)) child := by
  constructor
  · intro h
    refine ⟨h 0 value (.root value), ?_⟩
    intro child hChild depth part hPart
    exact h (depth + 1) part (.deeper hChild hPart)
  · intro h depth part hPart
    cases hPart with
    | root => exact h.1
    | deeper hChild hPart => exact h.2 _ hChild _ _ hPart

theorem everywhere_and {first second : Nat → CborValue → Prop} {value : CborValue} :
    Everywhere (fun depth part => first depth part ∧ second depth part) value ↔
      Everywhere first value ∧ Everywhere second value := by
  constructor
  · intro h
    exact ⟨fun depth part hPart => (h depth part hPart).1,
      fun depth part hPart => (h depth part hPart).2⟩
  · intro h depth part hPart
    exact ⟨h.1 depth part hPart, h.2 depth part hPart⟩

theorem mem_children_normalize {value child : CborValue} :
    child ∈ (normalize value).children ↔
      ∃ original ∈ value.children, normalize original = child := by
  cases value with
  | array values =>
      rw [normalize_array]
      exact List.mem_map
  | map entries =>
      rw [normalize_map, mem_children_map]
      constructor
      · intro h
        obtain ⟨_, hEntry, hChild⟩ := h
        obtain ⟨entry, hSorted, rfl⟩ := List.mem_map.mp hEntry
        have hMem := mem_sortByKey.mp hSorted
        rcases hChild with rfl | rfl
        · exact ⟨entry.1, mem_children_map.mpr ⟨entry, hMem, Or.inl rfl⟩, rfl⟩
        · exact ⟨entry.2, mem_children_map.mpr ⟨entry, hMem, Or.inr rfl⟩, rfl⟩
      · intro h
        obtain ⟨original, hOriginal, rfl⟩ := h
        obtain ⟨entry, hMem, hPart⟩ := mem_children_map.mp hOriginal
        refine ⟨normalizeEntry entry,
          List.mem_map_of_mem (mem_sortByKey.mpr hMem), ?_⟩
        rcases hPart with rfl | rfl
        · exact Or.inl rfl
        · exact Or.inr rfl
  | tag tag value => simp [normalize, CborValue.children, eq_comm]
  | _ => simp [normalize, CborValue.children]

/-- The parts of a normal form are the normal forms of the parts. -/
theorem everywhere_normalize {condition : Nat → CborValue → Prop}
    {value : CborValue} :
    Everywhere condition (normalize value) ↔
      Everywhere (fun depth part => condition depth (normalize part)) value := by
  induction value using CborValue.inductChildren generalizing condition with
  | step value ih =>
      have hOriginal : Everywhere (fun depth part => condition depth (normalize part))
          value ↔ condition 0 (normalize value) ∧ ∀ child ∈ value.children,
            Everywhere (fun depth part => condition (depth + 1) (normalize part))
              child := everywhere_iff
      rw [everywhere_iff, hOriginal]
      refine and_congr_right fun _ => ?_
      constructor
      · intro h child hChild
        exact (ih child hChild).mp
          (h _ (mem_children_normalize.mpr ⟨child, hChild, rfl⟩))
      · intro h child hChild
        obtain ⟨original, hOriginal, rfl⟩ := mem_children_normalize.mp hChild
        exact (ih original hOriginal).mpr (h original hOriginal)

/-! ### The conditions on one part -/

/-- The keys of a map are encoded differently. -/
def KeysDiffer : CborValue → Prop
  | .map entries => (entries.map writtenKey).Nodup
  | _ => True

/-- The keys of a map increase. -/
def KeysOrdered : CborValue → Prop
  | .map entries => KeysIncrease entryKey entries
  | _ => True

def TagAdmitted : CborValue → Prop
  | .tag tag _ => tag = 18
  | _ => True

def BelowZero : CborValue → Prop
  | .negative value => value.toInt < 0
  | _ => True

/-- The limits on the length of one part. -/
def FitsLimits (limits : CborLimits) : CborValue → Prop
  | .bytes value => value.length ≤ limits.maxByteStringBytes.toNat
  | .text value => (utf8 value).length ≤ limits.maxTextStringBytes.toNat
  | .array values => values.length ≤ limits.maxArrayEntries.toNat
  | .map entries => entries.length ≤ limits.maxMapEntries.toNat
  | _ => True

/-- No map, at any depth, has two keys with equal encodings. -/
def DistinctKeys (value : CborValue) : Prop :=
  Everywhere (fun _ part => KeysDiffer part) value

/-- No part is nested too deeply or too long. -/
def WithinLimits (limits : CborLimits) (value : CborValue) : Prop :=
  Everywhere (fun depth part =>
    depth ≤ limits.maxNesting.toNat ∧ FitsLimits limits part) value

/-- The normal form has ordered keys exactly where the keys differ. -/
theorem keysOrdered_normalize_iff {part : CborValue} :
    KeysOrdered (normalize part) ↔ KeysDiffer part := by
  cases part with
  | map entries =>
      rw [normalize_map]
      have hKeys : ((sortByKey writtenKey entries).map writtenKey).Perm
          (entries.map writtenKey) := (sortByKey_perm writtenKey entries).map _
      constructor
      · intro h
        have hOrdered : KeysIncrease entryKey
            ((sortByKey writtenKey entries).map normalizeEntry) := h
        have hNodup := hOrdered.nodup
        rw [List.map_map] at hNodup
        exact hKeys.nodup_iff.mp hNodup
      · intro h
        have hPairs : (sortByKey writtenKey entries).Pairwise fun first second =>
            ShortlexLt (entryKey (normalizeEntry first))
              (entryKey (normalizeEntry second)) := keysIncrease_sortByKey h
        exact List.pairwise_map.mpr hPairs
  | _ => simp [normalize, KeysOrdered, KeysDiffer]

theorem tagAdmitted_normalize_iff {part : CborValue} :
    TagAdmitted (normalize part) ↔ TagAdmitted part := by
  cases part <;> simp [normalize, TagAdmitted]

theorem belowZero_normalize_iff {part : CborValue} :
    BelowZero (normalize part) ↔ BelowZero part := by
  cases part <;> simp [normalize, BelowZero]

/-- The conditions of the profile on one part, apart from its depth. -/
structure LevelAdmitted (limits : CborLimits) (part : CborValue) : Prop where
  keys : KeysOrdered part
  tag : TagAdmitted part
  negative : BelowZero part
  fits : FitsLimits limits part

theorem acceptsParts_iff {limits : CborLimits} {accepts : CborValue → Prop}
    {value : CborValue} :
    AcceptsParts limits accepts value ↔
      LevelAdmitted limits value ∧ ∀ child ∈ value.children, accepts child := by
  have hLevel : LevelAdmitted limits value ↔ KeysOrdered value ∧ TagAdmitted value ∧
      BelowZero value ∧ FitsLimits limits value :=
    ⟨fun h => ⟨h.keys, h.tag, h.negative, h.fits⟩,
      fun h => ⟨h.1, h.2.1, h.2.2.1, h.2.2.2⟩⟩
  rw [hLevel]
  cases value with
  | map entries =>
      have hParts : (∀ child ∈ (CborValue.map entries).children, accepts child) ↔
          (∀ entry ∈ entries, accepts entry.1) ∧
            ∀ entry ∈ entries, accepts entry.2 := by
        constructor
        · intro h
          exact ⟨fun entry hEntry =>
              h _ (mem_children_map.mpr ⟨entry, hEntry, Or.inl rfl⟩),
            fun entry hEntry =>
              h _ (mem_children_map.mpr ⟨entry, hEntry, Or.inr rfl⟩)⟩
        · intro h child hChild
          obtain ⟨entry, hEntry, rfl | rfl⟩ := mem_children_map.mp hChild
          · exact h.1 entry hEntry
          · exact h.2 entry hEntry
      rw [hParts]
      simp only [AcceptsParts, KeysOrdered, TagAdmitted, BelowZero, FitsLimits,
        true_and]
      constructor
      · intro h
        obtain ⟨hLength, hKeys, hValues, hOrder⟩ := h
        exact ⟨⟨hOrder, hLength⟩, hKeys, hValues⟩
      · intro h
        obtain ⟨⟨hOrder, hLength⟩, hKeys, hValues⟩ := h
        exact ⟨hLength, hKeys, hValues, hOrder⟩
  | _ =>
      simp [AcceptsParts, KeysOrdered, TagAdmitted, BelowZero, FitsLimits,
        CborValue.children]

/-- A value of the profile is one whose every part is admitted at its depth. -/
theorem inProfile_iff_everywhere {limits : CborLimits} {depth : Nat}
    {value : CborValue} :
    InProfile limits depth value ↔
      Everywhere (fun below part => depth + below ≤ limits.maxNesting.toNat ∧
        LevelAdmitted limits part) value := by
  induction value using CborValue.inductChildren generalizing depth with
  | step value ih =>
      rw [inProfile_iff, acceptsParts_iff, everywhere_iff, Nat.add_zero, and_assoc]
      refine and_congr_right fun _ => and_congr_right fun _ => ?_
      refine forall₂_congr fun child hChild => ?_
      rw [ih child hChild]
      simp only [Nat.add_assoc, Nat.add_comm 1]

/-! ### What can be encoded -/

/-- No map has two keys with equal encodings, every tag is 18, every negative
integer is below zero, and the normal form is within the limits of a message. -/
structure IsEncodable (value : CborValue) : Prop where
  keys : DistinctKeys value
  tags : Everywhere (fun _ part => TagAdmitted part) value
  negatives : Everywhere (fun _ part => BelowZero part) value
  limits : WithinLimits .default (normalize value)
  size : (referenceEncoding (normalize value)).length ≤
    CborLimits.default.maxMessageBytes.toNat

theorem inProfile_normalize_iff {limits : CborLimits} {value : CborValue} :
    InProfile limits 0 (normalize value) ↔
      DistinctKeys value ∧ Everywhere (fun _ part => TagAdmitted part) value ∧
        Everywhere (fun _ part => BelowZero part) value ∧
        WithinLimits limits (normalize value) := by
  rw [inProfile_iff_everywhere, WithinLimits, DistinctKeys, everywhere_normalize,
    everywhere_normalize, ← everywhere_and, ← everywhere_and, ← everywhere_and]
  unfold Everywhere
  refine forall₃_congr fun depth part _ => ?_
  simp only [← keysOrdered_normalize_iff, Nat.zero_add]
  rw [← tagAdmitted_normalize_iff, ← belowZero_normalize_iff]
  constructor
  · intro h
    obtain ⟨hDepth, hLevel⟩ := h
    exact ⟨hLevel.keys, hLevel.tag, hLevel.negative, hDepth, hLevel.fits⟩
  · intro h
    obtain ⟨hKeys, hTag, hNegative, hDepth, hFits⟩ := h
    exact ⟨hDepth, hKeys, hTag, hNegative, hFits⟩

theorem encode_eq_ok_iff_isEncodable {value : CborValue} {output : Bytes} :
    encode value = .ok output ↔
      IsEncodable value ∧ output = referenceEncoding (normalize value) := by
  rw [encode_eq_ok_iff, inProfile_normalize_iff]
  constructor
  · intro h
    obtain ⟨hSize, ⟨hKeys, hTags, hNegatives, hLimits⟩, rfl⟩ := h
    exact ⟨⟨hKeys, hTags, hNegatives, hLimits, hSize⟩, rfl⟩
  · intro h
    obtain ⟨hValue, rfl⟩ := h
    exact ⟨hValue.size, ⟨hValue.keys, hValue.tags, hValue.negatives,
      hValue.limits⟩, rfl⟩

/-! ### The order of map entries -/

theorem distinctKeys_array_iff {values : List CborValue} :
    DistinctKeys (.array values) ↔ ∀ value ∈ values, DistinctKeys value := by
  rw [DistinctKeys, everywhere_iff]
  exact and_iff_right trivial

theorem distinctKeys_map_iff {entries : List (CborValue × CborValue)} :
    DistinctKeys (.map entries) ↔ (entries.map writtenKey).Nodup ∧
      ∀ entry ∈ entries, DistinctKeys entry.1 ∧ DistinctKeys entry.2 := by
  rw [DistinctKeys, everywhere_iff]
  refine and_congr_right fun _ => ?_
  constructor
  · intro h entry hEntry
    exact ⟨h _ (mem_children_map.mpr ⟨entry, hEntry, Or.inl rfl⟩),
      h _ (mem_children_map.mpr ⟨entry, hEntry, Or.inr rfl⟩)⟩
  · intro h child hChild
    obtain ⟨entry, hEntry, rfl | rfl⟩ := mem_children_map.mp hChild
    · exact (h entry hEntry).1
    · exact (h entry hEntry).2

theorem distinctKeys_tag_iff {tag : UInt64} {value : CborValue} :
    DistinctKeys (.tag tag value) ↔ DistinctKeys value := by
  rw [DistinctKeys, everywhere_iff]
  simp [KeysDiffer, CborValue.children, DistinctKeys]

/-- Distinct keys of the one are distinct in the other, and give both one normal
form. -/
def SharesNormalForm (first second : CborValue) : Prop :=
  DistinctKeys first → DistinctKeys second ∧ normalize first = normalize second

namespace SharesNormalForm

theorem trans {first second third : CborValue} (h : SharesNormalForm first second)
    (h' : SharesNormalForm second third) : SharesNormalForm first third := by
  intro hFirst
  obtain ⟨hSecond, hNormal⟩ := h hFirst
  obtain ⟨hThird, hNormal'⟩ := h' hSecond
  exact ⟨hThird, hNormal.trans hNormal'⟩

theorem entries {first second : List (CborValue × CborValue)}
    (hPerm : first.Perm second) : SharesNormalForm (.map first) (.map second) := by
  intro hFirst
  obtain ⟨hNodup, hParts⟩ := distinctKeys_map_iff.mp hFirst
  refine ⟨distinctKeys_map_iff.mpr ⟨?_, ?_⟩, normalize_map_congr_perm hPerm hNodup⟩
  · exact (hPerm.map writtenKey).nodup_iff.mp hNodup
  · intro entry hEntry
    exact hParts entry (hPerm.mem_iff.mpr hEntry)

theorem item (before after : List CborValue) {value value' : CborValue}
    (h : SharesNormalForm value value') :
    SharesNormalForm (.array (before ++ value :: after))
      (.array (before ++ value' :: after)) := by
  intro hFirst
  rw [distinctKeys_array_iff, List.forall_mem_append, List.forall_mem_cons] at hFirst
  obtain ⟨hBefore, hValue, hAfter⟩ := hFirst
  obtain ⟨hValue', hNormal⟩ := h hValue
  constructor
  · rw [distinctKeys_array_iff, List.forall_mem_append, List.forall_mem_cons]
    exact ⟨hBefore, hValue', hAfter⟩
  · rw [normalize_array, normalize_array, List.map_append, List.map_append,
      List.map_cons, List.map_cons, hNormal]

/-- The parts of one entry are replaced. -/
theorem entry (before after : List (CborValue × CborValue))
    {entry entry' : CborValue × CborValue} (hKey : SharesNormalForm entry.1 entry'.1)
    (hValue : SharesNormalForm entry.2 entry'.2) :
    SharesNormalForm (.map (before ++ entry :: after))
      (.map (before ++ entry' :: after)) := by
  intro hFirst
  obtain ⟨hNodup, hParts⟩ := distinctKeys_map_iff.mp hFirst
  rw [List.forall_mem_append, List.forall_mem_cons] at hParts
  obtain ⟨hBefore, ⟨hKeyParts, hValueParts⟩, hAfter⟩ := hParts
  obtain ⟨hKeyParts', hKeyNormal⟩ := hKey hKeyParts
  obtain ⟨hValueParts', hValueNormal⟩ := hValue hValueParts
  have hSame : (before ++ entry :: after).map normalizeEntry =
      (before ++ entry' :: after).map normalizeEntry := by
    simp only [List.map_append, List.map_cons, normalizeEntry, hKeyNormal,
      hValueNormal]
  constructor
  · rw [distinctKeys_map_iff, List.forall_mem_append, List.forall_mem_cons]
    refine ⟨?_, hBefore, ⟨hKeyParts', hValueParts'⟩, hAfter⟩
    -- An entry is ordered by the key of its normal form.
    have hKeys := congrArg (List.map entryKey) hSame
    rw [List.map_map, List.map_map] at hKeys
    exact Eq.mp (congrArg List.Nodup hKeys) hNodup
  · rw [normalize, normalize, normalizeEntries_eq_map, normalizeEntries_eq_map, hSame]

theorem tag (tag : UInt64) {value value' : CborValue}
    (h : SharesNormalForm value value') :
    SharesNormalForm (.tag tag value) (.tag tag value') := by
  intro hFirst
  obtain ⟨hValue', hNormal⟩ := h (distinctKeys_tag_iff.mp hFirst)
  exact ⟨distinctKeys_tag_iff.mpr hValue', by rw [normalize, normalize, hNormal]⟩

end SharesNormalForm

/-- Values that differ only in the order of map entries share their normal form, as
long as the keys of one of them are distinct. -/
theorem Reordered.sharesNormalForm {first second : CborValue}
    (h : Reordered first second) :
    SharesNormalForm first second ∧ SharesNormalForm second first := by
  have hRefl : ∀ value, SharesNormalForm value value :=
    fun value hValue => ⟨hValue, rfl⟩
  induction h with
  | refl value => exact ⟨hRefl value, hRefl value⟩
  | symm h ih => exact ih.symm
  | trans h h' ih ih' => exact ⟨ih.1.trans ih'.1, ih'.2.trans ih.2⟩
  | entries hPerm => exact ⟨.entries hPerm, .entries hPerm.symm⟩
  | item before after h ih => exact ⟨.item before after ih.1, .item before after ih.2⟩
  | key before after value h ih =>
      exact ⟨.entry before after ih.1 (hRefl value),
        .entry before after ih.2 (hRefl value)⟩
  | value before after key h ih =>
      exact ⟨.entry before after (hRefl key) ih.1,
        .entry before after (hRefl key) ih.2⟩
  | tag tag h ih => exact ⟨.tag tag ih.1, .tag tag ih.2⟩

theorem encode_eq_ok_of_reordered {first second : CborValue} {output : Bytes}
    (hReordered : Reordered first second) (h : encode first = .ok output) :
    encode second = .ok output := by
  have hKeys : DistinctKeys first := (encode_eq_ok_iff_isEncodable.mp h).1.keys
  obtain ⟨-, hNormal⟩ := hReordered.sharesNormalForm.1 hKeys
  rw [encode_eq_ok_iff_decode] at h ⊢
  rw [h, hNormal]

/-- The encoder takes exactly the encodable values, writes the reference encoding of
the normal form, which is read back as that form, and gives values that differ only
in the order of map entries the same bytes. -/
theorem encode_normalizes (value : CborValue) :
    ((∃ output, encode value = .ok output) ↔ IsEncodable value) ∧
      (∀ output, encode value = .ok output →
        output = referenceEncoding (normalize value) ∧
          decode output = .ok (normalize value)) ∧
      ∀ other output, Reordered value other →
        (encode value = .ok output ↔ encode other = .ok output) := by
  refine ⟨?_, ?_, ?_⟩
  · constructor
    · intro h
      obtain ⟨output, hOutput⟩ := h
      exact (encode_eq_ok_iff_isEncodable.mp hOutput).1
    · intro h
      exact ⟨_, encode_eq_ok_iff_isEncodable.mpr ⟨h, rfl⟩⟩
  · intro output h
    exact ⟨(encode_eq_ok_iff_isEncodable.mp h).2, encode_eq_ok_iff_decode.mp h⟩
  · intro other output hReordered
    exact ⟨encode_eq_ok_of_reordered hReordered,
      encode_eq_ok_of_reordered hReordered.symm⟩

end Protocol
end RootPermit
