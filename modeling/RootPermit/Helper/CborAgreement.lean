import RootPermit.Helper.Utf8
import RootPermit.Protocol.CborSorting

/-!
# The two CBOR decoders

`CborParser` of the helper and the parser of the protocol crate are written for one
profile: the same heads, nesting, collection sizes and key order.  Up to the tags and
booleans, which the helper does not read, they differ in one limit: the helper has one
for byte strings and texts, and the protocol crate a lower one for texts.

* `valueWithin_matches` — the helper's parser is the protocol's under `helperLimits`;
* `decoders_agree_iff` — the decoders disagree exactly on the encodings of values with a
  text that is too long for the protocol crate.
-/

namespace RootPermit
namespace Helper

open Foundation

/-! ### Corresponding values -/

mutual

/-- The helper's value for a value of the protocol; tags and booleans have none. -/
def ofProtocol : Protocol.CborValue → Option CborValue
  | .unsigned value => some (.unsignedInteger value)
  | .negative value => some (.negativeInteger value)
  | .bytes value => some (.bytes value)
  | .text value => some (.text (utf8 value))
  | .array values => (ofItems values).map .array
  | .map entries => (ofEntries entries).map .map
  | .tag _ _ => none
  | .bool _ => none
  | .null => some .nullValue

def ofItems : List Protocol.CborValue → Option (List CborValue)
  | [] => some []
  | value :: values => do
      let first ← ofProtocol value
      let rest ← ofItems values
      return first :: rest

def ofEntries : List (Protocol.CborValue × Protocol.CborValue) →
    Option (List (CborValue × CborValue))
  | [] => some []
  | (key, value) :: entries => do
      let first ← ofProtocol key
      let second ← ofProtocol value
      let rest ← ofEntries entries
      return (first, second) :: rest

end

/-- The two values correspond. -/
def Corresponds (value : CborValue) (read : Protocol.CborValue) : Prop :=
  ofProtocol read = some value

/-- Both parts of two entries correspond. -/
def EntriesCorrespond (entry : CborValue × CborValue)
    (read : Protocol.CborValue × Protocol.CborValue) : Prop :=
  Corresponds entry.1 read.1 ∧ Corresponds entry.2 read.2

theorem ofItems_eq_some_iff {values : List CborValue}
    {reads : List Protocol.CborValue} :
    ofItems reads = some values ↔ List.Forall₂ Corresponds values reads := by
  constructor
  · intro h
    induction reads generalizing values with
    | nil =>
        cases h
        exact .nil
    | cons read reads ih =>
        simp only [ofItems, Option.bind_eq_bind, Option.bind_eq_some_iff,
          Option.pure_def, Option.some.injEq] at h
        obtain ⟨first, hFirst, rest, hRest, rfl⟩ := h
        exact .cons hFirst (ih hRest)
  · intro h
    induction h with
    | nil => rfl
    | cons hFirst _ ih =>
        unfold Corresponds at hFirst
        rw [ofItems, hFirst, ih]
        rfl

theorem ofEntries_eq_some_iff {entries : List (CborValue × CborValue)}
    {reads : List (Protocol.CborValue × Protocol.CborValue)} :
    ofEntries reads = some entries ↔
      List.Forall₂ EntriesCorrespond entries reads := by
  constructor
  · intro h
    induction reads generalizing entries with
    | nil =>
        cases h
        exact .nil
    | cons read reads ih =>
        obtain ⟨key, value⟩ := read
        simp only [ofEntries, Option.bind_eq_bind, Option.bind_eq_some_iff,
          Option.pure_def, Option.some.injEq] at h
        obtain ⟨first, hKey, second, hValue, rest, hRest, rfl⟩ := h
        exact .cons ⟨hKey, hValue⟩ (ih hRest)
  · intro h
    induction h with
    | nil => rfl
    | cons hFirst _ ih =>
        obtain ⟨hKey, hValue⟩ := hFirst
        unfold Corresponds at hKey hValue
        rw [ofEntries, hKey, hValue, ih]
        rfl

/-! ### The parsers match -/

/-- The limits of the profile with one limit for byte strings and texts. -/
def helperLimits : Protocol.CborLimits :=
  { Protocol.CborLimits.default with
    maxTextStringBytes := Protocol.CborLimits.default.maxByteStringBytes }

namespace CborParser

section Argument

variable {additional : UInt8} {before after : Cursor} {value : UInt64} {width : Nat}

theorem argumentWidth?_eq_some (h : argumentWidth? additional = some width) :
    additional.toNat = 24 ∧ width = 1 ∨ additional.toNat = 25 ∧ width = 2 ∨
      additional.toNat = 26 ∧ width = 4 ∨ additional.toNat = 27 ∧ width = 8 := by
  unfold argumentWidth? at h
  split at h
  · next hInfo => exact .inl ⟨hInfo, (Option.some.inj h).symm⟩
  · next hInfo => exact .inr (.inl ⟨hInfo, (Option.some.inj h).symm⟩)
  · next hInfo => exact .inr (.inr (.inl ⟨hInfo, (Option.some.inj h).symm⟩))
  · next hInfo => exact .inr (.inr (.inr ⟨hInfo, (Option.some.inj h).symm⟩))
  · cases h

theorem announcedArgument_wide (h : argumentWidth? additional = some width) :
    Protocol.Parser.announcedArgument before additional =
      (Protocol.Parser.takeInteger before width).map
        fun (value, parser) => (value, width, parser) := by
  unfold Protocol.Parser.announcedArgument
  obtain ⟨hInfo, rfl⟩ | ⟨hInfo, rfl⟩ | ⟨hInfo, rfl⟩ | ⟨hInfo, rfl⟩ :=
    argumentWidth?_eq_some h
  all_goals simp only [hInfo]

theorem canonicalWidth_wide (h : argumentWidth? additional = some width) :
    Protocol.Parser.canonicalWidth value width = minimal width value := by
  obtain ⟨-, rfl⟩ | ⟨-, rfl⟩ | ⟨-, rfl⟩ | ⟨-, rfl⟩ := argumentWidth?_eq_some h
  all_goals simp [Protocol.Parser.canonicalWidth, minimal]

theorem announcedArgument_small (h : additional ≤ 23) :
    Protocol.Parser.announcedArgument before additional =
      .ok (additional.toUInt64, 0, before) := by
  have hNat : additional.toNat ≤ 23 := UInt8.le_iff_toNat_le.mp h
  unfold Protocol.Parser.announcedArgument
  split
  · omega
  · omega
  · omega
  · omega
  · rw [if_pos hNat]
    exact congrArg (fun value => Except.ok (value, 0, before))
      (UInt64.toNat_inj.mp (UInt64.toNat_ofNat_of_lt' (by
        have hSize : UInt64.size = 2 ^ 64 := rfl
        omega)))

theorem announcedArgument_none (hSmall : ¬ additional ≤ 23)
    (h : argumentWidth? additional = none) :
    Protocol.Parser.announcedArgument before additional = .error .indefiniteLength := by
  have hNat : ¬ additional.toNat ≤ 23 := fun hLow => hSmall (UInt8.le_iff_toNat_le.mpr hLow)
  have hWide : additional.toNat ≠ 24 ∧ additional.toNat ≠ 25 ∧ additional.toNat ≠ 26 ∧
      additional.toNat ≠ 27 := by
    refine ⟨?_, ?_, ?_, ?_⟩
    all_goals
      intro hInfo
      simp [argumentWidth?, hInfo] at h
  obtain ⟨h24, h25, h26, h27⟩ := hWide
  unfold Protocol.Parser.announcedArgument
  split
  · omega
  · omega
  · omega
  · omega
  · rw [if_neg hNat]

theorem argumentValue_sound
    (h : argumentValue additional before = .ok (value, after)) :
    Protocol.Parser.argument before additional = .ok (value, after) := by
  unfold argumentValue at h
  unfold Protocol.Parser.argument
  by_cases hSmall : additional ≤ 23
  · rw [if_pos hSmall, Except.ok.injEq, Prod.mk.injEq] at h
    obtain ⟨rfl, rfl⟩ := h
    have hCanonical : Protocol.Parser.canonicalWidth additional.toUInt64 0 = true := by
      rw [Protocol.Parser.canonicalWidth, decide_eq_true_eq, UInt64.le_iff_toNat_le]
      exact UInt8.le_iff_toNat_le.mp hSmall
    rw [announcedArgument_small hSmall, ok_bind]
    simp only [hCanonical]
    rfl
  · rw [if_neg hSmall] at h
    simp only [bind_eq_ok_iff, orFault_eq_ok_iff, rejectIf_eq_ok_iff, Prod.exists,
      pure_eq_ok, Except.ok.injEq, Prod.mk.injEq] at h
    obtain ⟨width, hWidth, bytes, parser, hBytes, _, hMinimal, rfl, rfl⟩ := h
    have hTake : Protocol.Parser.takeInteger before width =
        .ok (UInt64.ofNat (beValue bytes), parser) := by
      rw [Protocol.Parser.takeInteger, Protocol.Parser.take, hBytes]
      rfl
    have hCanonical : Protocol.Parser.canonicalWidth (UInt64.ofNat (beValue bytes))
        width = true := by
      rw [canonicalWidth_wide hWidth]
      simpa using hMinimal
    rw [announcedArgument_wide hWidth, hTake]
    simp only [Except.map, ok_bind]
    rw [hCanonical]
    rfl

end Argument

/-- Both parsers read the same arguments. -/
theorem argumentValue_eq_ok_iff {additional : UInt8} {before after : Cursor}
    {value : UInt64} :
    argumentValue additional before = .ok (value, after) ↔
      Protocol.Parser.argument before additional = .ok (value, after) := by
  refine ⟨argumentValue_sound, fun h => ?_⟩
  by_cases hSmall : additional ≤ 23
  · have hRead : argumentValue additional before =
        .ok (additional.toUInt64, before) := by
      rw [argumentValue, if_pos hSmall]
    rw [argumentValue_sound hRead, Except.ok.injEq] at h
    rw [hRead, h]
  · rw [argumentValue, if_neg hSmall]
    unfold Protocol.Parser.argument at h
    cases hWidth : argumentWidth? additional with
    | none =>
        rw [announcedArgument_none hSmall hWidth] at h
        cases h
    | some width =>
        rw [announcedArgument_wide hWidth] at h
        simp only [bind_eq_ok_iff, map_eq_ok_iff, Prod.exists, Prod.mk.injEq,
          Protocol.Parser.takeInteger, Protocol.Parser.take, orFault_eq_ok_iff,
          rejectIf_eq_ok_iff, pure_eq_ok, Except.ok.injEq] at h
        obtain ⟨_, _, _, ⟨_, _, ⟨bytes, middle, hBytes, rfl, rfl⟩, rfl, rfl, rfl⟩, _,
          hCanonical, rfl, rfl⟩ := h
        rw [canonicalWidth_wide hWidth] at hCanonical
        simp only [orFault, ok_bind, hBytes]
        have hMinimal : ¬ minimal width (UInt64.ofNat (beValue bytes)) = false := by
          simpa using hCanonical
        rw [rejectIf, if_neg hMinimal]
        rfl

/-! ### One level of the parsers -/

/-- A length of the protocol's parser is an argument within its limit. -/
theorem length_eq_ok_iff {additional : UInt8} {before after : Cursor} {max : UInt64}
    {kind : String} {count : Nat} :
    Protocol.Parser.length before additional max kind = .ok (count, after) ↔
      ∃ argument, argumentValue additional before = .ok (argument, after) ∧
        argument.toNat ≤ max.toNat ∧ argument.toNat = count := by
  simp only [Protocol.Parser.length, bind_eq_ok_iff, Prod.exists, pure_eq_ok,
    Except.ok.injEq, Prod.mk.injEq, rejectIf_eq_ok_iff, exists_const, gt_iff_lt,
    UInt64.not_lt, UInt64.le_iff_toNat_le, argumentValue_eq_ok_iff]
  constructor
  · rintro ⟨argument, _, hArgument, hMax, rfl, rfl⟩
    exact ⟨argument, hArgument, hMax, rfl⟩
  · rintro ⟨argument, hArgument, hMax, rfl⟩
    exact ⟨argument, after, hArgument, hMax, rfl, rfl⟩

theorem body_eq_ok_iff {argument : UInt64} {before after : Cursor} {bytes : Bytes} :
    body argument before = .ok (bytes, after) ↔
      argument.toNat ≤ 65536 ∧
        Protocol.Parser.take before argument.toNat = .ok (bytes, after) := by
  simp only [body, Protocol.Parser.take, bind_eq_ok_iff, orFault_eq_ok_iff,
    rejectIf_eq_ok_iff, exists_const, gt_iff_lt, UInt64.not_lt, UInt64.le_iff_toNat_le]
  rfl

variable {item : Cursor → Except ManifestError (CborValue × Cursor)}
  {item' : Cursor → Except Protocol.DecodeError (Protocol.CborValue × Cursor)}
  {accepts : Protocol.CborValue → Prop}

/-- The previous key of the helper is empty before the first key. -/
def previousOf (previousKey : Bytes) : Option Bytes :=
  if previousKey = [] then none else some previousKey

theorem keyOrder_iff {previousKey key : Bytes} :
    ¬ (previousKey ≠ [] ∧ shortlex previousKey key ≠ .lt) ↔
      Protocol.Parser.Follows (previousOf previousKey) key := by
  unfold Protocol.Parser.Follows previousOf
  by_cases hEmpty : previousKey = []
  · simp [hEmpty]
  · simp [hEmpty, shortlex_eq_lt_iff]

theorem referenceEncoding_ne_nil (read : Protocol.CborValue) :
    Protocol.referenceEncoding read ≠ [] := by
  rw [Protocol.referenceEncoding_eq]
  exact List.cons_ne_nil _ _

/-- The entries of a map are matched when its keys and values are. -/
theorem entries_match (hItem : Cursor.Matches item item' Corresponds)
    (hExact : Cursor.Exact item' accepts Protocol.referenceEncoding) (count : Nat)
    (previousKey : Bytes) :
    Cursor.Matches (entries item count previousKey)
      (Protocol.Parser.entries item' count (previousOf previousKey))
      (List.Forall₂ EntriesCorrespond) := by
  induction count generalizing previousKey with
  | zero =>
      intro before values after
      simp only [entries, Protocol.Parser.entries, Except.ok.injEq, Prod.mk.injEq]
      constructor
      · rintro ⟨rfl, rfl⟩
        exact ⟨[], .nil, rfl, rfl⟩
      · rintro ⟨_, hSame, rfl, rfl⟩
        exact ⟨(List.forall₂_nil_right_iff.mp hSame).symm, rfl⟩
  | succ count ih =>
      intro before values after
      -- An encoded key is never empty, so the helper takes it for a previous key.
      have hSome {key : Protocol.CborValue} {middle : Cursor}
          (hKey : item' before = .ok (key, middle)) :
          previousOf (Cursor.slice before.offset middle.offset middle.input) =
            some (Cursor.slice before.offset middle.offset middle.input) := by
        rw [((hExact _ _ _).mp hKey).2.slice_eq, previousOf,
          if_neg (referenceEncoding_ne_nil key)]
      simp only [entries, bind_eq_ok_iff, Prod.exists, rejectIf_eq_ok_iff, exists_const,
        pure_eq_ok, Except.ok.injEq, Prod.mk.injEq,
        Protocol.Parser.entries_succ_eq_ok_iff, keyOrder_iff]
      constructor
      · rintro ⟨key, middle, hKey, hFollows, value, middle', hValue, rest, _, hRest, rfl,
          rfl⟩
        obtain ⟨key', hSameKey, hKey'⟩ := (hItem _ _ _).mp hKey
        obtain ⟨value', hSameValue, hValue'⟩ := (hItem _ _ _).mp hValue
        obtain ⟨rest', hSameRest, hRest'⟩ := (ih _ _ _ _).mp hRest
        rw [hSome hKey'] at hRest'
        exact ⟨(key', value') :: rest', .cons ⟨hSameKey, hSameValue⟩ hSameRest, key',
          middle, value', middle', rest', hKey', hFollows, hValue', hRest', rfl⟩
      · rintro ⟨_, hSame, key', middle, value', middle', rest', hKey', hFollows, hValue',
          hRest', rfl⟩
        obtain ⟨⟨key, value⟩, rest, ⟨hSameKey, hSameValue⟩, hSameRest, rfl⟩ :=
          List.forall₂_cons_right_iff.mp hSame
        rw [← hSome hKey'] at hRest'
        exact ⟨key, middle, (hItem _ _ _).mpr ⟨key', hSameKey, hKey'⟩, hFollows, value,
          middle', (hItem _ _ _).mpr ⟨value', hSameValue, hValue'⟩, rest, after,
          (ih _ _ _ _).mpr ⟨rest', hSameRest, hRest'⟩, rfl, rfl⟩

/-- One level of the parsers is matched when the level below is. -/
theorem announced_matches (hItem : Cursor.Matches item item' Corresponds)
    (hExact : Cursor.Exact item' accepts Protocol.referenceEncoding)
    (major additional : UInt8) :
    Cursor.Matches (announced item major additional)
      (Protocol.Parser.announced helperLimits item' major additional) Corresponds := by
  intro before value after
  match hMajor : major.toNat with
  | 0 =>
      simp only [announced, Protocol.Parser.announced, hMajor, bind_eq_ok_iff,
        Prod.exists, pure_eq_ok, Except.ok.injEq, Prod.mk.injEq,
        argumentValue_eq_ok_iff]
      constructor
      · rintro ⟨argument, _, hArgument, rfl, rfl⟩
        exact ⟨.unsigned argument, rfl, argument, _, hArgument, rfl, rfl⟩
      · rintro ⟨_, hSame, argument, _, hArgument, rfl, rfl⟩
        exact ⟨argument, _, hArgument, Option.some.inj hSame, rfl⟩
  | 1 =>
      simp only [announced, Protocol.Parser.announced, hMajor, bind_eq_ok_iff,
        Prod.exists, pure_eq_ok, Except.ok.injEq, Prod.mk.injEq, orFault_eq_ok_iff,
        toI64?_eq_some_iff, rejectIf_eq_ok_iff, exists_const, gt_iff_lt, UInt64.not_lt,
        UInt64.le_iff_toNat_le, argumentValue_eq_ok_iff]
      constructor
      · rintro ⟨argument, _, hArgument, hLow, rfl, rfl⟩
        have hBound : argument.toNat ≤ 0x7fffffffffffffff := hLow
        have hNegative : (Int64.ofInt (-1 - argument.toNat)).toInt =
            -1 - argument.toNat :=
          Int64.toInt_ofInt_of_le (by omega) (by omega)
        exact ⟨.negative _, rfl, argument, _, hArgument, _, hNegative, rfl, rfl⟩
      · rintro ⟨_, hSame, argument, _, hArgument, negative, hNegative, rfl, rfl⟩
        have hLow := negative.le_toInt
        refine ⟨argument, _, hArgument, show argument.toNat ≤ 0x7fffffffffffffff by omega,
          ?_, rfl⟩
        rw [← hNegative, Int64.ofInt_toInt]
        exact Option.some.inj hSame
  | 2 =>
      simp only [announced, Protocol.Parser.announced, hMajor, bind_eq_ok_iff,
        Prod.exists, pure_eq_ok, Except.ok.injEq, Prod.mk.injEq, length_eq_ok_iff,
        body_eq_ok_iff]
      constructor
      · rintro ⟨argument, middle, hArgument, bytes, _, ⟨hLength, hBytes⟩, rfl, rfl⟩
        exact ⟨.bytes bytes, rfl, _, middle, ⟨argument, hArgument, hLength, rfl⟩, bytes, _,
          hBytes, rfl, rfl⟩
      · rintro ⟨_, hSame, _, middle, ⟨argument, hArgument, hLength, rfl⟩, bytes, _,
          hBytes, rfl, rfl⟩
        exact ⟨argument, middle, hArgument, bytes, _, ⟨hLength, hBytes⟩,
          Option.some.inj hSame, rfl⟩
  | 3 =>
      simp only [announced, Protocol.Parser.announced, hMajor, bind_eq_ok_iff,
        Prod.exists, pure_eq_ok, Except.ok.injEq, Prod.mk.injEq, length_eq_ok_iff,
        body_eq_ok_iff, rejectIf_eq_ok_iff, exists_const, Bool.not_eq_false,
        orFault_eq_ok_iff, ofUtf8?_eq_some_iff, validUtf8_iff]
      -- The helper keeps the bytes of a text; the protocol crate decodes them.
      constructor
      · rintro ⟨argument, middle, hArgument, _, _, ⟨hLength, hBytes⟩, ⟨text, rfl⟩, rfl,
          rfl⟩
        exact ⟨.text text, rfl, _, middle, ⟨argument, hArgument, hLength, rfl⟩, _, _,
          hBytes, text, rfl, rfl, rfl⟩
      · rintro ⟨_, hSame, _, middle, ⟨argument, hArgument, hLength, rfl⟩, _, _, hBytes,
          text, rfl, rfl, rfl⟩
        exact ⟨argument, middle, hArgument, _, _, ⟨hLength, hBytes⟩, ⟨text, rfl⟩,
          Option.some.inj hSame, rfl⟩
  | 4 =>
      simp only [announced, Protocol.Parser.announced, hMajor, bind_eq_ok_iff,
        Prod.exists, pure_eq_ok, Except.ok.injEq, Prod.mk.injEq, length_eq_ok_iff,
        rejectIf_eq_ok_iff, exists_const, Nat.not_lt, hItem.times _ _ _ _]
      constructor
      · rintro ⟨argument, middle, hArgument, hLength, values, _, ⟨reads, hSame, hReads⟩,
          rfl, rfl⟩
        refine ⟨.array reads, ?_, _, middle, ⟨argument, hArgument, hLength, rfl⟩, reads, _,
          hReads, rfl, rfl⟩
        rw [Corresponds, ofProtocol, ofItems_eq_some_iff.mpr hSame]
        rfl
      · rintro ⟨_, hSame, _, middle, ⟨argument, hArgument, hLength, rfl⟩, reads, _,
          hReads, rfl, rfl⟩
        rw [Corresponds, ofProtocol, Option.map_eq_some_iff] at hSame
        obtain ⟨values, hValues, rfl⟩ := hSame
        exact ⟨argument, middle, hArgument, hLength, values, _,
          ⟨reads, ofItems_eq_some_iff.mp hValues, hReads⟩, rfl, rfl⟩
  | 5 =>
      have hEntries := entries_match hItem hExact
      simp only [announced, Protocol.Parser.announced, hMajor, bind_eq_ok_iff,
        Prod.exists, pure_eq_ok, Except.ok.injEq, Prod.mk.injEq, length_eq_ok_iff,
        rejectIf_eq_ok_iff, exists_const, Nat.not_lt, hEntries _ _ _ _ _]
      constructor
      · rintro ⟨argument, middle, hArgument, hLength, values, _, ⟨reads, hSame, hReads⟩,
          rfl, rfl⟩
        refine ⟨.map reads, ?_, _, middle, ⟨argument, hArgument, hLength, rfl⟩, reads, _,
          hReads, rfl, rfl⟩
        rw [Corresponds, ofProtocol, ofEntries_eq_some_iff.mpr hSame]
        rfl
      · rintro ⟨_, hSame, _, middle, ⟨argument, hArgument, hLength, rfl⟩, reads, _,
          hReads, rfl, rfl⟩
        rw [Corresponds, ofProtocol, Option.map_eq_some_iff] at hSame
        obtain ⟨values, hValues, rfl⟩ := hSame
        exact ⟨argument, middle, hArgument, hLength, values, _,
          ⟨reads, ofEntries_eq_some_iff.mp hValues, hReads⟩, rfl, rfl⟩
  | 6 =>
      -- The helper reads no tags, and no value of the helper corresponds to one.
      simp only [announced, Protocol.Parser.announced, hMajor, bind_eq_ok_iff,
        Prod.exists, pure_eq_ok, Except.ok.injEq, Prod.mk.injEq, reduceCtorEq,
        false_iff]
      rintro ⟨_, hSame, _, _, _, _, _, _, _, _, rfl, _⟩
      cases hSame
  | 7 =>
      simp only [announced, Protocol.Parser.announced, hMajor]
      constructor
      · intro h
        split at h
        · next hNull =>
            simp only [Except.ok.injEq, Prod.mk.injEq] at h
            obtain ⟨rfl, rfl⟩ := h
            refine ⟨.null, rfl, ?_⟩
            rw [hNull]
            rfl
        · cases h
      · rintro ⟨read, hSame, hRead⟩
        -- Of the simple values, only null corresponds to a value of the helper.
        split at hRead
        · simp only [Except.ok.injEq, Prod.mk.injEq] at hRead
          rw [← hRead.1] at hSame
          cases hSame
        · simp only [Except.ok.injEq, Prod.mk.injEq] at hRead
          rw [← hRead.1] at hSame
          cases hSame
        · next hInfo =>
            simp only [Except.ok.injEq, Prod.mk.injEq] at hRead
            obtain ⟨rfl, rfl⟩ := hRead
            rw [if_pos (UInt8.toNat_inj.mp hInfo), ← Option.some.inj hSame]
        · cases hRead
  | major + 8 =>
      simp only [announced, Protocol.Parser.announced, hMajor, reduceCtorEq, and_false,
        exists_false]

/-- The helper's parser is the protocol's under its own limits.  The induction is on the
room left below the deepest level. -/
theorem valueWithin_matches (room : Nat) (hRoom : room ≤ 17) :
    Cursor.Matches (valueWithin room)
      (Protocol.Parser.valueWithin helperLimits room) Corresponds := by
  induction room with
  | zero =>
      intro before value after
      simp [valueWithin, Protocol.Parser.valueWithin]
  | succ room ih =>
      have hDepth : 17 - room + room = helperLimits.maxNesting.toNat + 1 := by
        change 17 - room + room = 16 + 1
        omega
      have hLevel := announced_matches (ih (by omega))
        (Protocol.Parser.valueWithin_exact helperLimits room (17 - room) hDepth)
      intro before value after
      simp only [valueWithin, Protocol.Parser.valueWithin, takeByte,
        Protocol.Parser.takeByte, bind_eq_ok_iff, Prod.exists, orFault_eq_ok_iff,
        rejectIf_eq_ok_iff, exists_const, hLevel _ _ _ _ _]
      constructor
      · rintro ⟨initial, middle, hInitial, hDefinite, read, hSame, hRead⟩
        exact ⟨read, hSame, initial, middle, hInitial, hDefinite, hRead⟩
      · rintro ⟨read, hSame, initial, middle, hInitial, hDefinite, hRead⟩
        exact ⟨initial, middle, hInitial, hDefinite, read, hSame, hRead⟩

/-- The helper accepts what the protocol's decoder accepts under its limits, up to the
tags and booleans. -/
theorem parse_eq_ok_iff {input : Bytes} {root : CborValue} :
    parse input = .ok root ↔
      ∃ read, Corresponds root read ∧
        Protocol.decodeWithLimits input helperLimits = .ok read := by
  have hMatches : Cursor.Matches (value 0) (Protocol.Parser.value helperLimits 0)
      Corresponds := valueWithin_matches 17 (Nat.le_refl _)
  have hSize : helperLimits.maxMessageBytes.toNat = kMaxManifestBytes := rfl
  simp only [parse, Protocol.decodeWithLimits, bind_eq_ok_iff, Prod.exists,
    rejectIf_eq_ok_iff, exists_const, pure_eq_ok, Except.ok.injEq, gt_iff_lt, hSize,
    hMatches _ _ _]
  constructor
  · rintro ⟨hLength, _, parser, ⟨read, hSame, hRead⟩, hEnd, rfl⟩
    exact ⟨read, hSame, hLength, read, parser, hRead, hEnd, rfl⟩
  · rintro ⟨_, hSame, hLength, read, parser, hRead, hEnd, rfl⟩
    exact ⟨hLength, root, parser, ⟨read, hSame, hRead⟩, hEnd, rfl⟩

/-- Where the helper and the protocol crate both accept a byte string, they return
corresponding values. -/
theorem parse_agrees {input : Bytes} {root : CborValue} {read : Protocol.CborValue}
    (h : parse input = .ok root) (h' : Protocol.decode input = .ok read) :
    Corresponds root read := by
  obtain ⟨read', hSame, hRead⟩ := parse_eq_ok_iff.mp h
  obtain ⟨-, hInput, hProfile⟩ := Protocol.decodeWithLimits_eq_ok_iff.mp hRead
  obtain ⟨-, hInput', hProfile'⟩ := Protocol.decodeWithLimits_eq_ok_iff.mp h'
  have hEq : read' = read := Protocol.referenceEncoding_injective
    hProfile.representable hProfile'.representable (hInput ▸ hInput')
  exact hEq ▸ hSame

end CborParser

/-! ### Where the decoders differ -/

/-- The value is no tag and no boolean. -/
def Readable : Protocol.CborValue → Prop
  | .tag _ _ => False
  | .bool _ => False
  | _ => True

/-- If the value is a text, it is as short as the protocol crate demands. -/
def ShortText : Protocol.CborValue → Prop
  | .text text =>
      (utf8 text).length ≤ Protocol.CborLimits.default.maxTextStringBytes.toNat
  | _ => True

/-- Neither the value nor, at any depth, a part of it is a tag or a boolean. -/
def AllReadable (value : Protocol.CborValue) : Prop :=
  Protocol.Everywhere (fun _ part => Readable part) value

/-- No text in the value is longer than the protocol crate admits. -/
def ShortTexts (value : Protocol.CborValue) : Prop :=
  Protocol.Everywhere (fun _ part => ShortText part) value

/-- A list of values for each of which there is a related one. -/
theorem exists_forall₂_iff {α β : Type} {related : α → β → Prop} {values : List β} :
    (∃ others, List.Forall₂ related others values) ↔
      ∀ value ∈ values, ∃ other, related other value := by
  induction values with
  | nil => exact ⟨fun _ _ hValue => absurd hValue List.not_mem_nil, fun _ => ⟨[], .nil⟩⟩
  | cons value values ih =>
      rw [List.forall_mem_cons, ← ih]
      constructor
      · rintro ⟨_, hSame⟩
        obtain ⟨other, others, hFirst, hRest, -⟩ := List.forall₂_cons_right_iff.mp hSame
        exact ⟨⟨other, hFirst⟩, others, hRest⟩
      · rintro ⟨⟨other, hFirst⟩, others, hRest⟩
        exact ⟨other :: others, .cons hFirst hRest⟩

/-- The helper has a value for everything but tags and booleans. -/
theorem exists_corresponds_iff (read : Protocol.CborValue) :
    (∃ root, Corresponds root read) ↔ AllReadable read := by
  unfold AllReadable
  induction read using Protocol.CborValue.inductChildren with
  | step read ih =>
      rw [Protocol.everywhere_iff]
      cases read with
      | array values =>
          have hItems : (∃ root, Corresponds root (.array values)) ↔
              ∃ roots, List.Forall₂ Corresponds roots values := by
            simp only [Corresponds, ofProtocol, Option.map_eq_some_iff,
              ofItems_eq_some_iff]
            exact ⟨fun ⟨_, roots, hRoots, _⟩ => ⟨roots, hRoots⟩,
              fun ⟨roots, hRoots⟩ => ⟨_, roots, hRoots, rfl⟩⟩
          rw [hItems, exists_forall₂_iff]
          constructor
          · intro h
            exact ⟨trivial, fun value hValue => (ih value hValue).mp (h value hValue)⟩
          · intro h value hValue
            exact (ih value hValue).mpr (h.2 value hValue)
      | map entries =>
          have hEntries : (∃ root, Corresponds root (.map entries)) ↔
              ∃ roots, List.Forall₂ EntriesCorrespond roots entries := by
            simp only [Corresponds, ofProtocol, Option.map_eq_some_iff,
              ofEntries_eq_some_iff]
            exact ⟨fun ⟨_, roots, hRoots, _⟩ => ⟨roots, hRoots⟩,
              fun ⟨roots, hRoots⟩ => ⟨_, roots, hRoots, rfl⟩⟩
          rw [hEntries, exists_forall₂_iff]
          constructor
          · intro h
            refine ⟨trivial, fun child hChild => (ih child hChild).mp ?_⟩
            obtain ⟨entry, hEntry, hPart⟩ := Protocol.mem_children_map.mp hChild
            obtain ⟨root, hKey, hValue⟩ := h entry hEntry
            rcases hPart with rfl | rfl
            · exact ⟨_, hKey⟩
            · exact ⟨_, hValue⟩
          · intro h entry hEntry
            have hPart (child : Protocol.CborValue)
                (hChild : child = entry.1 ∨ child = entry.2) :
                ∃ root, Corresponds root child := by
              have hMem := Protocol.mem_children_map.mpr ⟨entry, hEntry, hChild⟩
              exact (ih child hMem).mpr (h.2 child hMem)
            obtain ⟨key, hKey⟩ := hPart entry.1 (.inl rfl)
            obtain ⟨value, hValue⟩ := hPart entry.2 (.inr rfl)
            exact ⟨(key, value), hKey, hValue⟩
      | _ => simp [Corresponds, ofProtocol, Readable, Protocol.CborValue.children]

/-- The limits of one part differ in the length of texts. -/
theorem fitsLimits_default_iff (part : Protocol.CborValue) :
    Protocol.FitsLimits .default part ↔
      Protocol.FitsLimits helperLimits part ∧ ShortText part := by
  cases part with
  | text text =>
      have hLimits : Protocol.CborLimits.default.maxTextStringBytes.toNat ≤
          helperLimits.maxTextStringBytes.toNat := by decide
      constructor
      · intro h
        exact ⟨Nat.le_trans h hLimits, h⟩
      · intro h
        exact h.2
  | _ => simp [Protocol.FitsLimits, ShortText, helperLimits]

/-- The two profiles differ in the length of texts. -/
theorem inProfile_default_iff {value : Protocol.CborValue} :
    Protocol.InProfile .default 0 value ↔
      Protocol.InProfile helperLimits 0 value ∧ ShortTexts value := by
  have hNesting : helperLimits.maxNesting =
      Protocol.CborLimits.default.maxNesting := rfl
  rw [Protocol.inProfile_iff_everywhere, Protocol.inProfile_iff_everywhere, ShortTexts,
    ← Protocol.everywhere_and, hNesting]
  unfold Protocol.Everywhere
  refine forall₃_congr fun depth part _ => ?_
  constructor
  · rintro ⟨hDepth, hLevel⟩
    obtain ⟨hFits, hShort⟩ := (fitsLimits_default_iff part).mp hLevel.fits
    exact ⟨⟨hDepth, hLevel.keys, hLevel.tag, hLevel.negative, hFits⟩, hShort⟩
  · rintro ⟨⟨hDepth, hLevel⟩, hShort⟩
    exact ⟨hDepth, hLevel.keys, hLevel.tag, hLevel.negative,
      (fitsLimits_default_iff part).mpr ⟨hLevel.fits, hShort⟩⟩

/-- The protocol's decoder accepts the messages that the helper's limits admit and that
have short texts. -/
theorem decode_eq_ok_iff {input : Bytes} {read : Protocol.CborValue} :
    Protocol.decode input = .ok read ↔
      Protocol.decodeWithLimits input helperLimits = .ok read ∧
        ShortTexts read := by
  have hSize : helperLimits.maxMessageBytes =
      Protocol.CborLimits.default.maxMessageBytes := rfl
  rw [Protocol.decode, Protocol.decodeWithLimits_eq_ok_iff,
    Protocol.decodeWithLimits_eq_ok_iff, inProfile_default_iff, hSize]
  constructor
  · rintro ⟨hLength, hInput, hProfile, hTexts⟩
    exact ⟨⟨hLength, hInput, hProfile⟩, hTexts⟩
  · rintro ⟨⟨hLength, hInput, hProfile⟩, hTexts⟩
    exact ⟨hLength, hInput, hProfile, hTexts⟩

/-- On a byte string, what either decoder reads without tags and booleans the other one
reads as the corresponding value. -/
def DecodersAgree (input : Bytes) : Prop :=
  (∀ root, CborParser.parse input = .ok root →
    ∃ read, Protocol.decode input = .ok read ∧ Corresponds root read) ∧
  ∀ read, Protocol.decode input = .ok read → AllReadable read →
    ∃ root, CborParser.parse input = .ok root ∧ Corresponds root read

/-- The byte string is the encoding of a value without tags and booleans that the
helper's limits admit, and a text of the value is too long for the protocol crate. -/
def LongTextOnly (input : Bytes) : Prop :=
  ∃ value, input = Protocol.referenceEncoding value ∧ input.length ≤ kMaxManifestBytes ∧
    Protocol.InProfile helperLimits 0 value ∧ AllReadable value ∧
    ¬ ShortTexts value

theorem LongTextOnly.not_agree {input : Bytes} (h : LongTextOnly input) :
    ¬ DecodersAgree input := by
  rintro ⟨hParsed, -⟩
  obtain ⟨value, hInput, hSize, hProfile, hReadable, hLong⟩ := h
  have hRead : Protocol.decodeWithLimits input helperLimits = .ok value :=
    Protocol.decodeWithLimits_eq_ok_iff.mpr ⟨hSize, hInput, hProfile⟩
  obtain ⟨root, hSame⟩ := (exists_corresponds_iff value).mpr hReadable
  obtain ⟨read, hDecoded, -⟩ :=
    hParsed root (CborParser.parse_eq_ok_iff.mpr ⟨value, hSame, hRead⟩)
  obtain ⟨hRead', hShort⟩ := decode_eq_ok_iff.mp hDecoded
  rw [hRead, Except.ok.injEq] at hRead'
  exact hLong (hRead' ▸ hShort)

/-- The decoders differ in the long texts only. -/
theorem decoders_agree_iff (input : Bytes) :
    DecodersAgree input ↔ ¬ LongTextOnly input := by
  refine ⟨fun hAgree hLong => hLong.not_agree hAgree, fun h => ⟨?_, ?_⟩⟩
  · intro root hRoot
    obtain ⟨read, hSame, hRead⟩ := CborParser.parse_eq_ok_iff.mp hRoot
    obtain ⟨hSize, hInput, hProfile⟩ := Protocol.decodeWithLimits_eq_ok_iff.mp hRead
    have hShort : ShortTexts read := by
      by_contra hLong
      exact h ⟨read, hInput, hSize, hProfile,
        (exists_corresponds_iff read).mp ⟨root, hSame⟩, hLong⟩
    exact ⟨read, decode_eq_ok_iff.mpr ⟨hRead, hShort⟩, hSame⟩
  · intro read hDecoded hReadable
    obtain ⟨root, hSame⟩ := (exists_corresponds_iff read).mpr hReadable
    have hRead := (decode_eq_ok_iff.mp hDecoded).1
    exact ⟨root, CborParser.parse_eq_ok_iff.mpr ⟨read, hSame, hRead⟩, hSame⟩

/-! ### A text of 16385 bytes -/

theorem utf8_replicate (count : Nat) :
    utf8 (String.ofList (List.replicate count 'a')) = List.replicate count 0x61 := by
  have hLetter : String.utf8EncodeChar 'a' = [0x61] := by decide
  rw [Utf8.utf8_eq_flatMap, String.toList_ofList, List.flatMap_replicate, hLetter]
  induction count with
  | zero => rfl
  | succ count ih => rw [List.replicate_succ, List.flatten_cons, ih]; rfl

/-- The encoding of 16385 letters, one more than a text of the protocol may have. -/
def longText : Bytes :=
  [0x79, 0x40, 0x01] ++ List.replicate 16385 0x61

/-- The helper reads it and the protocol crate does not. -/
theorem longText_disagrees : ¬ DecodersAgree longText := by
  apply LongTextOnly.not_agree
  have hText := utf8_replicate 16385
  have hLength : (utf8 (String.ofList (List.replicate 16385 'a'))).length = 16385 := by
    rw [hText, List.length_replicate]
  refine ⟨.text (String.ofList (List.replicate 16385 'a')), ?_, ?_, ?_, ?_, ?_⟩
  · rw [Protocol.referenceEncoding, hLength, hText]
    rfl
  · rw [longText, List.length_append, List.length_replicate]
    decide
  · rw [Protocol.inProfile_iff]
    refine ⟨Nat.zero_le _, ?_⟩
    change (utf8 _).length ≤ 65536
    omega
  · exact (exists_corresponds_iff _).mp ⟨_, rfl⟩
  · intro hShort
    have hBound : (utf8 _).length ≤ 16384 := (Protocol.everywhere_iff.mp hShort).1
    omega

end Helper
end RootPermit
