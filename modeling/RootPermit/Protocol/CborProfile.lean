import Mathlib.Tactic.IntervalCases
import RootPermit.Protocol.Cbor

/-!
# What the CBOR decoder accepts

The profile is stated here without a parser: `referenceEncoding` writes a value
with the shortest heads, definite lengths and its entries in the listed order,
and `InProfile` says which values are admitted.  The parser is then shown to be
exact for that encoding, level by level.

* `argument_eq_ok_iff` — the five head widths admit one notation per integer;
* `entries_exact` — the running comparison of raw key slices admits exactly the
  maps whose encoded keys increase;
* `valueWithin_exact` — the induction on the room left below `max_nesting`.
-/

namespace RootPermit
namespace Protocol

open Foundation

/-! ### The reference encoding -/

/-- The number of bytes that follow the initial byte of a shortest head. -/
def headWidth (argument : Nat) : Nat :=
  if argument < 24 then 0
  else if argument < 2 ^ 8 then 1
  else if argument < 2 ^ 16 then 2
  else if argument < 2 ^ 32 then 4
  else 8

/-- The low five bits of the initial byte of a shortest head. -/
def headInfo (argument : Nat) : Nat :=
  if argument < 24 then argument
  else if argument < 2 ^ 8 then 24
  else if argument < 2 ^ 16 then 25
  else if argument < 2 ^ 32 then 26
  else 27

/-- The shortest head of a major type and its argument. -/
def referenceHead (major argument : Nat) : Bytes :=
  UInt8.ofNat (32 * major + headInfo argument) ::
    beBytes (headWidth argument) argument

mutual

/-- The deterministic encoding of a value whose maps are written in the order
in which their entries are listed. -/
def referenceEncoding : CborValue → Bytes
  | .unsigned value => referenceHead 0 value.toNat
  | .negative value => referenceHead 1 (-1 - value.toInt).toNat
  | .bytes value => referenceHead 2 value.length ++ value
  | .text value => referenceHead 3 (utf8 value).length ++ utf8 value
  | .array values => referenceHead 4 values.length ++ referenceItems values
  | .map entries => referenceHead 5 entries.length ++ referenceEntries entries
  | .tag tag value => referenceHead 6 tag.toNat ++ referenceEncoding value
  | .bool false => [0xf4]
  | .bool true => [0xf5]
  | .null => [0xf6]

def referenceItems : List CborValue → Bytes
  | [] => []
  | value :: rest => referenceEncoding value ++ referenceItems rest

def referenceEntries : List (CborValue × CborValue) → Bytes
  | [] => []
  | (key, value) :: rest =>
      referenceEncoding key ++ referenceEncoding value ++ referenceEntries rest

end

theorem referenceItems_eq_flatMap (values : List CborValue) :
    referenceItems values = values.flatMap referenceEncoding := by
  induction values with
  | nil => rfl
  | cons value rest ih => rw [referenceItems, List.flatMap_cons, ih]

/-- The bytes by which an entry is ordered within its map. -/
def entryKey (entry : CborValue × CborValue) : Bytes :=
  referenceEncoding entry.1

/-- The values admitted at nesting depth `depth`; the root has depth zero.
Negative values are below zero, and their upper bound in absolute value is that
of `i64`; text is valid UTF-8 because it is a text. -/
inductive InProfile (limits : CborLimits) : Nat → CborValue → Prop
  | unsigned {depth : Nat} (hDepth : depth ≤ limits.maxNesting.toNat)
      (value : UInt64) : InProfile limits depth (.unsigned value)
  | negative {depth : Nat} (hDepth : depth ≤ limits.maxNesting.toNat)
      (value : Int64) (hNegative : value.toInt < 0) :
      InProfile limits depth (.negative value)
  | bytes {depth : Nat} (hDepth : depth ≤ limits.maxNesting.toNat)
      (value : Bytes)
      (hLength : value.length ≤ limits.maxByteStringBytes.toNat) :
      InProfile limits depth (.bytes value)
  | text {depth : Nat} (hDepth : depth ≤ limits.maxNesting.toNat)
      (value : String)
      (hLength : (utf8 value).length ≤ limits.maxTextStringBytes.toNat) :
      InProfile limits depth (.text value)
  | array {depth : Nat} (hDepth : depth ≤ limits.maxNesting.toNat)
      (values : List CborValue)
      (hLength : values.length ≤ limits.maxArrayEntries.toNat)
      (hItems : ∀ value ∈ values, InProfile limits (depth + 1) value) :
      InProfile limits depth (.array values)
  | map {depth : Nat} (hDepth : depth ≤ limits.maxNesting.toNat)
      (entries : List (CborValue × CborValue))
      (hLength : entries.length ≤ limits.maxMapEntries.toNat)
      (hKeys : ∀ entry ∈ entries, InProfile limits (depth + 1) entry.1)
      (hValues : ∀ entry ∈ entries, InProfile limits (depth + 1) entry.2)
      (hOrder : KeysIncrease entryKey entries) :
      InProfile limits depth (.map entries)
  | tag {depth : Nat} (hDepth : depth ≤ limits.maxNesting.toNat)
      (value : CborValue) (hValue : InProfile limits (depth + 1) value) :
      InProfile limits depth (.tag 18 value)
  | bool {depth : Nat} (hDepth : depth ≤ limits.maxNesting.toNat)
      (value : Bool) : InProfile limits depth (.bool value)
  | null {depth : Nat} (hDepth : depth ≤ limits.maxNesting.toNat) :
      InProfile limits depth .null

/-! ### Primitive reads -/

namespace Parser

theorem takeByte_eq_ok_iff {before after : Cursor} {byte : UInt8} :
    takeByte before = .ok (byte, after) ↔ before.Reads [byte] after := by
  rw [takeByte, orFault_eq_ok_iff, Cursor.next?_eq_some_iff]

theorem take_eq_ok_iff {before after : Cursor} {length : Nat} {bytes : Bytes} :
    take before length = .ok (bytes, after) ↔
      bytes.length = length ∧ before.Reads bytes after := by
  rw [take, orFault_eq_ok_iff, Cursor.advance?_eq_some_iff]

theorem takeInteger_eq_ok_iff {before after : Cursor} {width : Nat}
    {value : UInt64} (hWidth : width ≤ 8) :
    takeInteger before width = .ok (value, after) ↔
      value.toNat < 256 ^ width ∧
        before.Reads (beBytes width value.toNat) after := by
  have hPower : 256 ^ width ≤ 2 ^ 64 := by
    calc
      256 ^ width ≤ 256 ^ 8 := Nat.pow_le_pow_right (by decide) hWidth
      _ = 2 ^ 64 := by decide
  simp only [takeInteger, bind_eq_ok_iff, Prod.exists, take_eq_ok_iff,
    pure_eq_ok, Except.ok.injEq, Prod.mk.injEq]
  constructor
  · rintro ⟨bytes, cursor, ⟨rfl, hReads⟩, rfl, rfl⟩
    have hBound := beValue_lt bytes
    have hValue : (UInt64.ofNat (beValue bytes)).toNat = beValue bytes :=
      UInt64.toNat_ofNat_of_lt' (Nat.lt_of_lt_of_le hBound hPower)
    rw [hValue, beBytes_beValue]
    exact ⟨hBound, hReads⟩
  · rintro ⟨hBound, hReads⟩
    refine ⟨_, after, ⟨length_beBytes _ _, hReads⟩, ?_, rfl⟩
    rw [beValue_beBytes_of_lt hBound, UInt64.ofNat_toNat]

/-- The width check of `argument` admits exactly the shortest width. -/
theorem canonicalWidth_eq_true_iff {value : UInt64} {width : Nat}
    (hBound : width ≠ 0 → value.toNat < 256 ^ width) :
    canonicalWidth value width = true ↔ width = headWidth value.toNat := by
  unfold canonicalWidth headWidth
  split
  · rw [decide_eq_true_iff, UInt64.le_iff_toNat_le]
    change value.toNat ≤ 23 ↔ _
    split_ifs <;> simp <;> omega
  · have hValue := hBound (by decide)
    rw [decide_eq_true_iff, GE.ge, UInt64.le_iff_toNat_le]
    change 24 ≤ value.toNat ↔ _
    split_ifs <;> simp <;> omega
  · have hValue := hBound (by decide)
    rw [decide_eq_true_iff, GT.gt, UInt64.lt_iff_toNat_lt]
    change 255 < value.toNat ↔ _
    split_ifs <;> simp <;> omega
  · have hValue := hBound (by decide)
    rw [decide_eq_true_iff, GT.gt, UInt64.lt_iff_toNat_lt]
    change 65535 < value.toNat ↔ _
    split_ifs <;> simp <;> omega
  · have hValue := hBound (by decide)
    rw [decide_eq_true_iff, GT.gt, UInt64.lt_iff_toNat_lt]
    change 4294967295 < value.toNat ↔ _
    split_ifs <;> simp <;> omega
  · -- No shortest head has another width.
    rename_i hZero hOne hTwo hFour hEight
    simp only [Bool.false_eq_true, false_iff]
    intro hWidth
    split_ifs at hWidth
    · exact hZero hWidth
    · exact hOne hWidth
    · exact hTwo hWidth
    · exact hFour hWidth
    · exact hEight hWidth

/-- The width announced by the low five bits of an initial byte. -/
def infoWidth (info : Nat) : Option Nat :=
  if info ≤ 23 then some 0
  else if info = 24 then some 1
  else if info = 25 then some 2
  else if info = 26 then some 4
  else if info = 27 then some 8
  else none

/-- A head is the shortest one when it announces the shortest width and, at
width zero, the argument itself. -/
theorem eq_headInfo_iff {info argument : Nat} :
    info = headInfo argument ↔
      infoWidth info = some (headWidth argument) ∧
        (headWidth argument = 0 → info = argument) := by
  unfold headInfo headWidth infoWidth
  split_ifs <;> simp <;> omega

/-- The notation announced for an argument: `width` trailing bytes that hold it
or, at width zero, the low five bits themselves. -/
def Announces (info width argument : Nat) : Prop :=
  infoWidth info = some width ∧ (width = 0 → info = argument) ∧
    (width ≠ 0 → argument < 256 ^ width)

theorem wide_eq_ok_iff {before after : Cursor} {value : UInt64}
    {info width width' : Nat} (hInfo : infoWidth info = some width)
    (hWidth : width ≤ 8) (hPositive : width ≠ 0) :
    ((takeInteger before width).map fun (value, cursor) =>
        (value, width, cursor)) = .ok (value, width', after) ↔
      Announces info width' value.toNat ∧
        before.Reads (beBytes width' value.toNat) after := by
  simp only [map_eq_ok_iff, Prod.exists, Prod.mk.injEq,
    takeInteger_eq_ok_iff hWidth]
  constructor
  · intro h
    obtain ⟨read, cursor, ⟨hBound, hReads⟩, rfl, rfl, rfl⟩ := h
    exact ⟨⟨hInfo, fun hZero => absurd hZero hPositive, fun _ => hBound⟩, hReads⟩
  · intro h
    obtain ⟨⟨hInfo', -, hBound⟩, hReads⟩ := h
    have hSame : width = width' := Option.some.inj (hInfo.symm.trans hInfo')
    subst hSame
    exact ⟨value, after, ⟨hBound hPositive, hReads⟩, rfl, rfl, rfl⟩

theorem announcedArgument_eq_ok_iff {before after : Cursor}
    {additional : UInt8} {value : UInt64} {width : Nat} :
    announcedArgument before additional = .ok (value, width, after) ↔
      Announces additional.toNat width value.toNat ∧
        before.Reads (beBytes width value.toNat) after := by
  unfold announcedArgument
  split
  · rename_i hInfo
    exact wide_eq_ok_iff (by simp [infoWidth, hInfo]) (by decide) (by decide)
  · rename_i hInfo
    exact wide_eq_ok_iff (by simp [infoWidth, hInfo]) (by decide) (by decide)
  · rename_i hInfo
    exact wide_eq_ok_iff (by simp [infoWidth, hInfo]) (by decide) (by decide)
  · rename_i hInfo
    exact wide_eq_ok_iff (by simp [infoWidth, hInfo]) (by decide) (by decide)
  · rename_i hNot24 hNot25 hNot26 hNot27
    have hInfo : infoWidth additional.toNat =
        if additional.toNat ≤ 23 then some 0 else none := by
      simp only [infoWidth, if_neg hNot24, if_neg hNot25, if_neg hNot26,
        if_neg hNot27]
    unfold Announces
    rw [hInfo]
    by_cases hSmall : additional.toNat ≤ 23
    · rw [if_pos hSmall, if_pos hSmall]
      constructor
      · intro h
        simp only [Except.ok.injEq, Prod.mk.injEq] at h
        obtain ⟨rfl, rfl, rfl⟩ := h
        have hValue : (UInt64.ofNat additional.toNat).toNat =
            additional.toNat :=
          UInt64.toNat_ofNat_of_lt' (by
            have hByte : additional.toNat < 2 ^ 8 := additional.toNat_lt
            have hSize : UInt64.size = 2 ^ 64 := rfl
            omega)
        refine ⟨⟨rfl, fun _ => hValue.symm, fun hZero => absurd rfl hZero⟩, ?_⟩
        exact Cursor.reads_nil_iff.mpr rfl
      · intro h
        obtain ⟨⟨hWidth, hValue, -⟩, hReads⟩ := h
        have hZero : width = 0 := (Option.some.inj hWidth).symm
        subst hZero
        have hAfter : after = before := Cursor.reads_nil_iff.mp hReads
        rw [hValue rfl, UInt64.ofNat_toNat, hAfter]
    · rw [if_neg hSmall, if_neg hSmall]
      simp

/-- The head of an integer is read back exactly from its shortest notation. -/
theorem argument_eq_ok_iff {before after : Cursor} {additional : UInt8}
    {value : UInt64} :
    argument before additional = .ok (value, after) ↔
      additional.toNat = headInfo value.toNat ∧
        before.Reads (beBytes (headWidth value.toNat) value.toNat) after := by
  simp only [argument, bind_eq_ok_iff, Prod.exists, announcedArgument_eq_ok_iff,
    rejectIf_eq_ok_iff, exists_const, pure_eq_ok, Except.ok.injEq,
    Prod.mk.injEq, Bool.not_eq_true', Bool.not_eq_false]
  rw [eq_headInfo_iff]
  constructor
  · intro h
    obtain ⟨_, width, _, ⟨⟨hInfo, hZero, hBound⟩, hReads⟩, hCanonical, rfl, rfl⟩ := h
    have hWidth := (canonicalWidth_eq_true_iff hBound).mp hCanonical
    subst hWidth
    exact ⟨⟨hInfo, hZero⟩, hReads⟩
  · intro h
    obtain ⟨⟨hInfo, hZero⟩, hReads⟩ := h
    have hBound : headWidth value.toNat ≠ 0 →
        value.toNat < 256 ^ headWidth value.toNat := by
      have hValue : value.toNat < 2 ^ 64 := value.toNat_lt
      intro hPositive
      unfold headWidth at hPositive ⊢
      split_ifs at hPositive ⊢ <;> omega
    exact ⟨value, headWidth value.toNat, after,
      ⟨⟨hInfo, hZero, hBound⟩, hReads⟩,
      (canonicalWidth_eq_true_iff hBound).mpr rfl, rfl, rfl⟩

theorem length_eq_ok_iff {before after : Cursor} {additional : UInt8}
    {max : UInt64} {kind : String} {count : Nat} :
    length before additional max kind = .ok (count, after) ↔
      count ≤ max.toNat ∧ additional.toNat = headInfo count ∧
        before.Reads (beBytes (headWidth count) count) after := by
  simp only [length, bind_eq_ok_iff, Prod.exists, argument_eq_ok_iff,
    rejectIf_eq_ok_iff, exists_const, pure_eq_ok, Except.ok.injEq,
    Prod.mk.injEq, GT.gt, UInt64.not_lt, UInt64.le_iff_toNat_le]
  constructor
  · intro h
    obtain ⟨_, _, hRead, hMax, rfl, rfl⟩ := h
    exact ⟨hMax, hRead⟩
  · intro h
    obtain ⟨hMax, hRead⟩ := h
    have hSize : count < 2 ^ 64 := Nat.lt_of_le_of_lt hMax max.toNat_lt
    have hCount : (UInt64.ofNat count).toNat = count :=
      UInt64.toNat_ofNat_of_lt' hSize
    refine ⟨UInt64.ofNat count, after, ?_, ?_, hCount, rfl⟩
    · rw [hCount]
      exact hRead
    · rw [hCount]
      exact hMax

/-! ### Map entries -/

/-- A key may follow the previous one in a map. -/
def Follows (previousKey : Option Bytes) (key : Bytes) : Prop :=
  ∀ previous ∈ previousKey, ShortlexLt previous key

/-- The entries whose keys are admitted after `previousKey`. -/
def EntriesFollow (previousKey : Option Bytes)
    (entries : List (CborValue × CborValue)) : Prop :=
  KeysIncrease entryKey entries ∧
    ∀ entry ∈ entries, Follows previousKey (entryKey entry)

theorem entriesFollow_cons_iff {previousKey : Option Bytes}
    {entry : CborValue × CborValue} {rest : List (CborValue × CborValue)} :
    EntriesFollow previousKey (entry :: rest) ↔
      Follows previousKey (entryKey entry) ∧
        EntriesFollow (some (entryKey entry)) rest := by
  unfold EntriesFollow KeysIncrease Follows
  rw [List.pairwise_cons]
  constructor
  · intro h
    obtain ⟨⟨hHead, hRest⟩, hFollows⟩ := h
    refine ⟨hFollows entry List.mem_cons_self, hRest, ?_⟩
    intro later hLater previous hPrevious
    cases hPrevious
    exact hHead later hLater
  · intro h
    obtain ⟨hFirst, hRest, hFollows⟩ := h
    have hHead : ∀ later ∈ rest, ShortlexLt (entryKey entry) (entryKey later) :=
      fun later hLater => hFollows later hLater _ rfl
    refine ⟨⟨hHead, hRest⟩, ?_⟩
    intro later hLater previous hPrevious
    cases List.mem_cons.mp hLater with
    | inl hEq =>
        subst hEq
        exact hFirst previous hPrevious
    | inr hMem =>
        exact (hFirst previous hPrevious).trans (hHead later hMem)

theorem checkKeyOrder_eq_ok_iff {previousKey : Option Bytes} {key : Bytes}
    {result : Unit} :
    checkKeyOrder previousKey key = .ok result ↔ Follows previousKey key := by
  cases previousKey with
  | none => simp [checkKeyOrder, Follows]
  | some previous =>
      simp [checkKeyOrder, Follows, shortlex_eq_lt_iff]

theorem entries_succ_eq_ok_iff
    {item : Cursor → Except DecodeError (CborValue × Cursor)} {count : Nat}
    {previousKey : Option Bytes} {before after : Cursor}
    {values : List (CborValue × CborValue)} :
    entries item (count + 1) previousKey before = .ok (values, after) ↔
      ∃ key afterKey value afterValue rest,
        item before = .ok (key, afterKey) ∧
        Follows previousKey
          (Cursor.slice before.offset afterKey.offset afterKey.input) ∧
        item afterKey = .ok (value, afterValue) ∧
        entries item count
          (some (Cursor.slice before.offset afterKey.offset afterKey.input))
          afterValue = .ok (rest, after) ∧
        values = (key, value) :: rest := by
  simp only [entries, bind_eq_ok_iff, Prod.exists, checkKeyOrder_eq_ok_iff,
    exists_const, pure_eq_ok, Except.ok.injEq, Prod.mk.injEq]
  constructor
  · intro h
    obtain ⟨key, afterKey, hKey, hFollows, value, afterValue, hValue, rest, _,
      hRest, rfl, rfl⟩ := h
    exact ⟨key, afterKey, value, afterValue, rest, hKey, hFollows, hValue,
      hRest, rfl⟩
  · intro h
    obtain ⟨key, afterKey, value, afterValue, rest, hKey, hFollows, hValue,
      hRest, rfl⟩ := h
    exact ⟨key, afterKey, hKey, hFollows, value, afterValue, hValue, rest,
      after, hRest, rfl, rfl⟩

/-- The running comparison of key slices accepts the maps whose encoded keys
increase. -/
theorem entries_exact
    {item : Cursor → Except DecodeError (CborValue × Cursor)}
    {accepts : CborValue → Prop}
    (hItem : Cursor.Exact item accepts referenceEncoding) (count : Nat)
    (previousKey : Option Bytes) :
    Cursor.Exact (entries item count previousKey)
      (fun values => values.length = count ∧
        (∀ entry ∈ values, accepts entry.1) ∧
        (∀ entry ∈ values, accepts entry.2) ∧
        EntriesFollow previousKey values)
      referenceEntries := by
  induction count generalizing previousKey with
  | zero =>
      intro before values after
      cases values with
      | nil =>
          simp [entries, referenceEntries, Cursor.reads_nil_iff, eq_comm,
            EntriesFollow, KeysIncrease]
      | cons entry rest => simp [entries]
  | succ count ih =>
      intro before values after
      rw [entries_succ_eq_ok_iff]
      constructor
      · intro h
        obtain ⟨key, afterKey, value, afterValue, rest, hKey, hFollows, hValue,
          hRest, rfl⟩ := h
        obtain ⟨hKeyOk, hKeyReads⟩ := (hItem _ _ _).mp hKey
        obtain ⟨hValueOk, hValueReads⟩ := (hItem _ _ _).mp hValue
        -- The slice that the parser compares is the encoding of the key.
        rw [hKeyReads.slice_eq] at hFollows hRest
        obtain ⟨⟨hLength, hKeys, hValues, hOrder⟩, hRestReads⟩ :=
          (ih _ _ _ _).mp hRest
        refine ⟨⟨by simp [hLength], ?_, ?_, ?_⟩, ?_⟩
        · exact List.forall_mem_cons.mpr ⟨hKeyOk, hKeys⟩
        · exact List.forall_mem_cons.mpr ⟨hValueOk, hValues⟩
        · exact entriesFollow_cons_iff.mpr ⟨hFollows, hOrder⟩
        · rw [referenceEntries, Cursor.reads_append_iff]
          refine ⟨afterValue, ?_, hRestReads⟩
          exact Cursor.reads_append_iff.mpr ⟨afterKey, hKeyReads, hValueReads⟩
      · intro h
        obtain ⟨⟨hLength, hKeys, hValues, hOrder⟩, hReads⟩ := h
        cases values with
        | nil => simp at hLength
        | cons entry rest =>
            obtain ⟨key, value⟩ := entry
            obtain ⟨hKeyOk, hKeys⟩ := List.forall_mem_cons.mp hKeys
            obtain ⟨hValueOk, hValues⟩ := List.forall_mem_cons.mp hValues
            obtain ⟨hFollows, hOrder⟩ := entriesFollow_cons_iff.mp hOrder
            rw [referenceEntries, Cursor.reads_append_iff] at hReads
            obtain ⟨afterValue, hEntry, hRestReads⟩ := hReads
            obtain ⟨afterKey, hKeyReads, hValueReads⟩ :=
              Cursor.reads_append_iff.mp hEntry
            refine ⟨key, afterKey, value, afterValue, rest, ?_, ?_, ?_, ?_, rfl⟩
            · exact (hItem _ _ _).mpr ⟨hKeyOk, hKeyReads⟩
            · rw [hKeyReads.slice_eq]
              exact hFollows
            · exact (hItem _ _ _).mpr ⟨hValueOk, hValueReads⟩
            · rw [hKeyReads.slice_eq]
              exact (ih _ _ _ _).mpr
                ⟨⟨by simpa using hLength, hKeys, hValues, hOrder⟩, hRestReads⟩

/-! ### One level of a value -/

end Parser

/-- The major type of a value. -/
def majorType : CborValue → Nat
  | .unsigned _ => 0
  | .negative _ => 1
  | .bytes _ => 2
  | .text _ => 3
  | .array _ => 4
  | .map _ => 5
  | .tag _ _ => 6
  | .bool _ => 7
  | .null => 7

/-- The argument in the head of a value. -/
def headArgument : CborValue → Nat
  | .unsigned value => value.toNat
  | .negative value => (-1 - value.toInt).toNat
  | .bytes value => value.length
  | .text value => (utf8 value).length
  | .array values => values.length
  | .map entries => entries.length
  | .tag tag _ => tag.toNat
  | .bool false => 20
  | .bool true => 21
  | .null => 22

/-- What follows the head of a value. -/
def content : CborValue → Bytes
  | .bytes value => value
  | .text value => utf8 value
  | .array values => referenceItems values
  | .map entries => referenceEntries entries
  | .tag _ value => referenceEncoding value
  | _ => []

theorem referenceEncoding_eq (value : CborValue) :
    referenceEncoding value =
      referenceHead (majorType value) (headArgument value) ++ content value := by
  cases value with
  | bool value =>
      cases value with
      | false => rfl
      | true => rfl
  | null => rfl
  | _ => simp [referenceEncoding, majorType, headArgument, content]

/-- The conditions of the profile on one level of a value, given those on its
parts. -/
def AcceptsParts (limits : CborLimits) (accepts : CborValue → Prop) :
    CborValue → Prop
  | .unsigned _ => True
  | .negative value => value.toInt < 0
  | .bytes value => value.length ≤ limits.maxByteStringBytes.toNat
  | .text value => (utf8 value).length ≤ limits.maxTextStringBytes.toNat
  | .array values =>
      values.length ≤ limits.maxArrayEntries.toNat ∧
        ∀ value ∈ values, accepts value
  | .map entries =>
      entries.length ≤ limits.maxMapEntries.toNat ∧
        (∀ entry ∈ entries, accepts entry.1) ∧
        (∀ entry ∈ entries, accepts entry.2) ∧
        KeysIncrease entryKey entries
  | .tag tag value => tag = 18 ∧ accepts value
  | .bool _ => True
  | .null => True

theorem inProfile_iff {limits : CborLimits} {depth : Nat} {value : CborValue} :
    InProfile limits depth value ↔
      depth ≤ limits.maxNesting.toNat ∧
        AcceptsParts limits (InProfile limits (depth + 1)) value := by
  constructor
  · intro h
    cases h with
    | unsigned hDepth => exact ⟨hDepth, trivial⟩
    | negative hDepth value hNegative => exact ⟨hDepth, hNegative⟩
    | bytes hDepth value hLength => exact ⟨hDepth, hLength⟩
    | text hDepth value hLength => exact ⟨hDepth, hLength⟩
    | array hDepth values hLength hItems => exact ⟨hDepth, hLength, hItems⟩
    | map hDepth entries hLength hKeys hValues hOrder =>
        exact ⟨hDepth, hLength, hKeys, hValues, hOrder⟩
    | tag hDepth value hValue => exact ⟨hDepth, rfl, hValue⟩
    | bool hDepth => exact ⟨hDepth, trivial⟩
    | null hDepth => exact ⟨hDepth, trivial⟩
  · intro h
    obtain ⟨hDepth, hParts⟩ := h
    cases value with
    | unsigned value => exact .unsigned hDepth value
    | negative value => exact .negative hDepth value hParts
    | bytes value => exact .bytes hDepth value hParts
    | text value => exact .text hDepth value hParts
    | array values => exact .array hDepth values hParts.1 hParts.2
    | map entries =>
        exact .map hDepth entries hParts.1 hParts.2.1 hParts.2.2.1 hParts.2.2.2
    | tag tag value =>
        obtain ⟨rfl, hValue⟩ := hParts
        exact .tag hDepth value hValue
    | bool value => exact .bool hDepth value
    | null => exact .null hDepth

namespace Parser

section Level

variable {limits : CborLimits}
  {item : Cursor → Except DecodeError (CborValue × Cursor)}
  {accepts : CborValue → Prop} {major additional : UInt8}
  {before after : Cursor} {value : CborValue}

theorem entriesFollow_none_iff {entries : List (CborValue × CborValue)} :
    EntriesFollow none entries ↔ KeysIncrease entryKey entries := by
  simp [EntriesFollow, Follows]

/-- What the parser returns after an initial byte is announced by that byte. -/
theorem announced_sound (hItem : Cursor.Exact item accepts referenceEncoding)
    (h : announced limits item major additional before = .ok (value, after)) :
    AcceptsParts limits accepts value ∧ major.toNat = majorType value ∧
      additional.toNat = headInfo (headArgument value) ∧
      before.Reads (beBytes (headWidth (headArgument value))
        (headArgument value) ++ content value) after := by
  unfold announced at h
  split at h
  · rename_i hMajor
    simp only [bind_eq_ok_iff, Prod.exists, argument_eq_ok_iff, pure_eq_ok,
      Except.ok.injEq, Prod.mk.injEq] at h
    obtain ⟨read, cursor, ⟨hInfo, hReads⟩, rfl, rfl⟩ := h
    exact ⟨trivial, hMajor, hInfo, by simpa [content, headArgument] using hReads⟩
  · rename_i hMajor
    simp only [bind_eq_ok_iff, Prod.exists, argument_eq_ok_iff, pure_eq_ok,
      Except.ok.injEq, Prod.mk.injEq, orFault_eq_ok_iff, toI64?_eq_some_iff] at h
    obtain ⟨read, cursor, ⟨hInfo, hReads⟩, signed, hSigned, rfl, rfl⟩ := h
    -- A negative integer n is written as -1 - n.
    have hArgument : (-1 - signed.toInt).toNat = read.toNat := by omega
    refine ⟨?_, hMajor, ?_, ?_⟩
    · change signed.toInt < 0
      omega
    · rw [headArgument, hArgument]
      exact hInfo
    · rw [headArgument, hArgument]
      simpa [content] using hReads
  · rename_i hMajor
    simp only [bind_eq_ok_iff, Prod.exists, length_eq_ok_iff, take_eq_ok_iff,
      pure_eq_ok, Except.ok.injEq, Prod.mk.injEq] at h
    obtain ⟨count, cursor, ⟨hMax, hInfo, hHead⟩, bytes, _, ⟨rfl, hBytes⟩, rfl,
      rfl⟩ := h
    exact ⟨hMax, hMajor, hInfo,
      Cursor.reads_append_iff.mpr ⟨cursor, hHead, hBytes⟩⟩
  · rename_i hMajor
    simp only [bind_eq_ok_iff, Prod.exists, length_eq_ok_iff, take_eq_ok_iff,
      pure_eq_ok, Except.ok.injEq, Prod.mk.injEq, orFault_eq_ok_iff,
      ofUtf8?_eq_some_iff] at h
    obtain ⟨count, cursor, ⟨hMax, hInfo, hHead⟩, bytes, _, ⟨rfl, hBytes⟩, text,
      rfl, rfl, rfl⟩ := h
    exact ⟨hMax, hMajor, hInfo,
      Cursor.reads_append_iff.mpr ⟨cursor, hHead, hBytes⟩⟩
  · rename_i hMajor
    simp only [bind_eq_ok_iff, Prod.exists, length_eq_ok_iff, pure_eq_ok,
      Except.ok.injEq, Prod.mk.injEq, (hItem.times _) _ _ _] at h
    obtain ⟨count, cursor, ⟨hMax, hInfo, hHead⟩, values, _,
      ⟨⟨rfl, hAll⟩, hItems⟩, rfl, rfl⟩ := h
    refine ⟨⟨hMax, hAll⟩, hMajor, hInfo, ?_⟩
    rw [Cursor.reads_append_iff, content, referenceItems_eq_flatMap]
    exact ⟨cursor, hHead, hItems⟩
  · rename_i hMajor
    simp only [bind_eq_ok_iff, Prod.exists, length_eq_ok_iff, pure_eq_ok,
      Except.ok.injEq, Prod.mk.injEq, (entries_exact hItem _ _) _ _ _,
      entriesFollow_none_iff] at h
    obtain ⟨count, cursor, ⟨hMax, hInfo, hHead⟩, values, _,
      ⟨⟨rfl, hKeys, hValues, hOrder⟩, hEntries⟩, rfl, rfl⟩ := h
    exact ⟨⟨hMax, hKeys, hValues, hOrder⟩, hMajor, hInfo,
      Cursor.reads_append_iff.mpr ⟨cursor, hHead, hEntries⟩⟩
  · rename_i hMajor
    simp only [bind_eq_ok_iff, Prod.exists, argument_eq_ok_iff, pure_eq_ok,
      Except.ok.injEq, Prod.mk.injEq, rejectIf_eq_ok_iff, exists_const,
      not_not, hItem _ _ _] at h
    obtain ⟨tag, cursor, ⟨hInfo, hHead⟩, hTag, inner, _, ⟨hInner, hReads⟩, rfl,
      rfl⟩ := h
    exact ⟨⟨hTag, hInner⟩, hMajor, hInfo,
      Cursor.reads_append_iff.mpr ⟨cursor, hHead, hReads⟩⟩
  -- The simple values have no argument of their own.
  · rename_i hMajor
    split at h
    · rename_i hInfo
      simp only [Except.ok.injEq, Prod.mk.injEq] at h
      obtain ⟨rfl, rfl⟩ := h
      exact ⟨trivial, hMajor, hInfo, Cursor.reads_nil_iff.mpr rfl⟩
    · rename_i hInfo
      simp only [Except.ok.injEq, Prod.mk.injEq] at h
      obtain ⟨rfl, rfl⟩ := h
      exact ⟨trivial, hMajor, hInfo, Cursor.reads_nil_iff.mpr rfl⟩
    · rename_i hInfo
      simp only [Except.ok.injEq, Prod.mk.injEq] at h
      obtain ⟨rfl, rfl⟩ := h
      exact ⟨trivial, hMajor, hInfo, Cursor.reads_nil_iff.mpr rfl⟩
    · cases h
  · cases h

/-- A value of the profile is returned where its bytes follow the initial byte
that announces it. -/
theorem announced_complete
    (hItem : Cursor.Exact item accepts referenceEncoding)
    (hParts : AcceptsParts limits accepts value)
    (hMajor : major.toNat = majorType value)
    (hInfo : additional.toNat = headInfo (headArgument value))
    (hReads : before.Reads (beBytes (headWidth (headArgument value))
      (headArgument value) ++ content value) after) :
    announced limits item major additional before = .ok (value, after) := by
  obtain ⟨cursor, hHead, hContent⟩ := Cursor.reads_append_iff.mp hReads
  cases value with
  | unsigned value =>
      have hAfter := Cursor.reads_nil_iff.mp hContent
      subst hAfter
      simp only [announced, hMajor, majorType, bind_eq_ok_iff, Prod.exists,
        argument_eq_ok_iff, pure_eq_ok]
      exact ⟨value, after, ⟨hInfo, hHead⟩, rfl⟩
  | negative value =>
      have hAfter := Cursor.reads_nil_iff.mp hContent
      subst hAfter
      have hNegative : value.toInt < 0 := hParts
      have hLow : -2 ^ 63 ≤ value.toInt := value.le_toInt
      -- The argument of a negative `i64` fits an unsigned 64-bit word.
      obtain ⟨argument, hArgument⟩ :
          ∃ argument : UInt64, argument.toNat = (-1 - value.toInt).toNat :=
        ⟨UInt64.ofNat (-1 - value.toInt).toNat,
          UInt64.toNat_ofNat_of_lt' (by
            have hSize : UInt64.size = 2 ^ 64 := rfl
            omega)⟩
      simp only [announced, hMajor, majorType, bind_eq_ok_iff, Prod.exists,
        argument_eq_ok_iff, pure_eq_ok, orFault_eq_ok_iff, toI64?_eq_some_iff]
      refine ⟨argument, after, ?_, value, by omega, rfl⟩
      rw [hArgument]
      exact ⟨hInfo, hHead⟩
  | bytes value =>
      simp only [announced, hMajor, majorType, bind_eq_ok_iff, Prod.exists,
        length_eq_ok_iff, take_eq_ok_iff, pure_eq_ok]
      exact ⟨value.length, cursor, ⟨hParts, hInfo, hHead⟩, value, after,
        ⟨rfl, hContent⟩, rfl⟩
  | text value =>
      simp only [announced, hMajor, majorType, bind_eq_ok_iff, Prod.exists,
        length_eq_ok_iff, take_eq_ok_iff, pure_eq_ok, orFault_eq_ok_iff,
        ofUtf8?_eq_some_iff]
      exact ⟨(utf8 value).length, cursor, ⟨hParts, hInfo, hHead⟩, utf8 value,
        after, ⟨rfl, hContent⟩, value, rfl, rfl⟩
  | array values =>
      rw [content, referenceItems_eq_flatMap] at hContent
      simp only [announced, hMajor, majorType, bind_eq_ok_iff, Prod.exists,
        length_eq_ok_iff, pure_eq_ok, (hItem.times _) _ _ _]
      exact ⟨values.length, cursor, ⟨hParts.1, hInfo, hHead⟩, values, after,
        ⟨⟨rfl, hParts.2⟩, hContent⟩, rfl⟩
  | map entries =>
      obtain ⟨hLength, hKeys, hValues, hOrder⟩ := hParts
      simp only [announced, hMajor, majorType, bind_eq_ok_iff, Prod.exists,
        length_eq_ok_iff, pure_eq_ok, (entries_exact hItem _ _) _ _ _,
        entriesFollow_none_iff]
      exact ⟨entries.length, cursor, ⟨hLength, hInfo, hHead⟩, entries, after,
        ⟨⟨rfl, hKeys, hValues, hOrder⟩, hContent⟩, rfl⟩
  | tag tag value =>
      simp only [announced, hMajor, majorType, bind_eq_ok_iff, Prod.exists,
        argument_eq_ok_iff, pure_eq_ok, rejectIf_eq_ok_iff, exists_const,
        not_not, hItem _ _ _]
      exact ⟨tag, cursor, ⟨hInfo, hHead⟩, hParts.1, value, after,
        ⟨hParts.2, hContent⟩, rfl⟩
  | bool value =>
      have hAfter := Cursor.reads_nil_iff.mp hContent
      subst hAfter
      cases value with
      | false =>
          have hBefore := Cursor.reads_nil_iff.mp hHead
          have hInfo' : additional.toNat = 20 := hInfo
          simp [announced, hMajor, majorType, hInfo', hBefore]
      | true =>
          have hBefore := Cursor.reads_nil_iff.mp hHead
          have hInfo' : additional.toNat = 21 := hInfo
          simp [announced, hMajor, majorType, hInfo', hBefore]
  | null =>
      have hAfter := Cursor.reads_nil_iff.mp hContent
      subst hAfter
      have hBefore := Cursor.reads_nil_iff.mp hHead
      have hInfo' : additional.toNat = 22 := hInfo
      simp [announced, hMajor, majorType, hInfo', hBefore]

end Level

/-! ### Whole values -/

/-- An initial byte is its major type and its low five bits. -/
theorem initial_eq_iff {initial : UInt8} {major info : Nat} (hMajor : major < 8)
    (hInfo : info < 32) :
    initial = UInt8.ofNat (32 * major + info) ↔
      (initial >>> 5).toNat = major ∧ (initial &&& 0x1f).toNat = info := by
  have hByte : initial.toNat < 2 ^ 8 := initial.toNat_lt
  have hShift : (initial >>> 5).toNat = initial.toNat / 32 := by
    rw [UInt8.toNat_shiftRight]
    exact Nat.shiftRight_eq_div_pow initial.toNat 5
  have hMask : (initial &&& 0x1f).toNat = initial.toNat % 32 := by
    rw [UInt8.toNat_and]
    exact Nat.and_two_pow_sub_one_eq_mod initial.toNat 5
  rw [hShift, hMask, ← UInt8.toNat_inj, UInt8.toNat_ofNat_of_lt' (by
    have hSize : UInt8.size = 256 := rfl
    omega)]
  omega

theorem headInfo_lt (argument : Nat) : headInfo argument < 28 := by
  unfold headInfo
  split_ifs <;> omega

theorem majorType_lt (value : CborValue) : majorType value < 8 := by
  cases value <;> simp [majorType]

/-- One level of the parser is exact when the level below it is. -/
theorem level_exact {limits : CborLimits} {accepts : CborValue → Prop}
    {room : Nat}
    (hItem : Cursor.Exact (valueWithin limits room) accepts referenceEncoding) :
    Cursor.Exact (valueWithin limits (room + 1)) (AcceptsParts limits accepts)
      referenceEncoding := by
  intro before value after
  rw [referenceEncoding_eq, referenceHead, List.cons_append,
    Cursor.reads_cons_iff]
  simp only [valueWithin, bind_eq_ok_iff, Prod.exists, takeByte_eq_ok_iff,
    rejectIf_eq_ok_iff, exists_const]
  have hInfoBound := headInfo_lt (headArgument value)
  have hMajorBound := majorType_lt value
  constructor
  · intro h
    obtain ⟨initial, cursor, hInitial, -, hAnnounced⟩ := h
    obtain ⟨hParts, hMajor, hInfo, hReads⟩ := announced_sound hItem hAnnounced
    have hByte := (initial_eq_iff hMajorBound (by omega)).mpr ⟨hMajor, hInfo⟩
    rw [hByte] at hInitial
    exact ⟨hParts, cursor, hInitial, hReads⟩
  · intro h
    obtain ⟨hParts, cursor, hInitial, hReads⟩ := h
    obtain ⟨hMajor, hInfo⟩ := (initial_eq_iff hMajorBound (by omega)).mp
      (rfl : UInt8.ofNat (32 * majorType value + headInfo (headArgument value))
        = _)
    refine ⟨_, cursor, hInitial, ?_,
      announced_complete hItem hParts hMajor hInfo hReads⟩
    intro hIndefinite
    rw [hIndefinite] at hInfo
    have hLiteral : (31 : UInt8).toNat = 31 := rfl
    omega

/-- The parser is exact at every depth.  The induction is on the room left
below `max_nesting`; without room nothing is accepted. -/
theorem valueWithin_exact (limits : CborLimits) (room depth : Nat)
    (hRoom : depth + room = limits.maxNesting.toNat + 1) :
    Cursor.Exact (valueWithin limits room) (InProfile limits depth)
      referenceEncoding := by
  induction room generalizing depth with
  | zero =>
      intro before value after
      simp only [valueWithin, reduceCtorEq, false_iff]
      intro h
      have hDepth := (inProfile_iff.mp h.1).1
      omega
  | succ room ih =>
      have hLevel := level_exact (ih (depth + 1) (by omega))
      intro before value after
      rw [hLevel before value after, inProfile_iff]
      have hDepth : depth ≤ limits.maxNesting.toNat := by omega
      simp [hDepth]

end Parser

/-- The decoder accepts exactly the deterministic encodings of the values of
the profile. -/
theorem decodeWithLimits_eq_ok_iff {input : Bytes} {limits : CborLimits}
    {value : CborValue} :
    decodeWithLimits input limits = .ok value ↔
      input.length ≤ limits.maxMessageBytes.toNat ∧
        input = referenceEncoding value ∧ InProfile limits 0 value := by
  have hExact := Parser.valueWithin_exact limits
    (limits.maxNesting.toNat + 1) 0 (Nat.zero_add _)
  simp only [decodeWithLimits, Parser.value, Nat.sub_zero, bind_eq_ok_iff,
    Prod.exists, rejectIf_eq_ok_iff, exists_const, pure_eq_ok, Except.ok.injEq,
    not_lt, GT.gt, ne_eq, not_not, hExact _ _ _]
  constructor
  · intro h
    obtain ⟨hSize, _, cursor, ⟨hProfile, hReads⟩, hEnd, rfl⟩ := h
    exact ⟨hSize, Cursor.reads_start_iff.mp ⟨cursor, hReads, hEnd⟩, hProfile⟩
  · intro h
    obtain ⟨hSize, hInput, hProfile⟩ := h
    obtain ⟨cursor, hReads, hEnd⟩ := Cursor.reads_start_iff.mpr hInput
    exact ⟨hSize, value, cursor, ⟨hProfile, hReads⟩, hEnd, rfl⟩

/-- The decoder accepts exactly the deterministic encodings of the values of
the profile, and so no value is read from two byte strings. -/
theorem decodeWithLimits_exact_and_injective :
    (∀ (input : Bytes) (limits : CborLimits) (value : CborValue),
      decodeWithLimits input limits = .ok value ↔
        input.length ≤ limits.maxMessageBytes.toNat ∧
          input = referenceEncoding value ∧ InProfile limits 0 value) ∧
    (∀ (first second : Bytes) (limits limits' : CborLimits) (value : CborValue),
      decodeWithLimits first limits = .ok value →
      decodeWithLimits second limits' = .ok value → first = second) := by
  refine ⟨fun input limits value => decodeWithLimits_eq_ok_iff, ?_⟩
  intro first second limits limits' value hFirst hSecond
  have hFirstBytes := (decodeWithLimits_eq_ok_iff.mp hFirst).2.1
  have hSecondBytes := (decodeWithLimits_eq_ok_iff.mp hSecond).2.1
  rw [hFirstBytes, hSecondBytes]

end Protocol
end RootPermit
