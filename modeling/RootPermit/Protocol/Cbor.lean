import RootPermit.Foundation.Cursor
import RootPermit.Foundation.MachineInt
import RootPermit.Foundation.Shortlex

/-!
# The deterministic CBOR profile

This module embeds `rp-protocol/src/cbor.rs`: the value type, the profile
limits, the bounded parser and the encoder.

* The parser is a cursor over the input; its `limits` field is read-only and is
  a parameter here.  `Parser::value` recurses on the nesting depth, so it is
  written by recursion on the room that is left below `max_nesting`
  (`Parser.valueWithin`); `Parser.value_eq` is its equation with the depth.
* The encoder appends to an output buffer; `encodeInto` returns what it appends.
  A map is written in the order of its encoded keys, each obtained from the
  checked entry point `encode`, which parses what it has written.
-/

namespace RootPermit
namespace Protocol

open Foundation

/-- A value of the RootPermit data model.  `usize` lengths are those of the
64-bit targets. -/
inductive CborValue where
  | unsigned (value : UInt64)
  | negative (value : Int64)
  | bytes (value : Bytes)
  | text (value : String)
  | array (values : List CborValue)
  | map (entries : List (CborValue × CborValue))
  | tag (tag : UInt64) (value : CborValue)
  | bool (value : Bool)
  | null
  deriving Repr

/-- Induction on a value: the parts of an array are its items, those of a map
its keys and values. -/
theorem CborValue.induct {motive : CborValue → Prop}
    (unsigned : ∀ value, motive (.unsigned value))
    (negative : ∀ value, motive (.negative value))
    (bytes : ∀ value, motive (.bytes value))
    (text : ∀ value, motive (.text value))
    (array : ∀ values, (∀ value ∈ values, motive value) → motive (.array values))
    (map : ∀ entries, (∀ entry ∈ entries, motive entry.1) →
      (∀ entry ∈ entries, motive entry.2) → motive (.map entries))
    (tag : ∀ tag value, motive value → motive (.tag tag value))
    (bool : ∀ value, motive (.bool value)) (null : motive .null)
    (value : CborValue) : motive value := by
  refine @CborValue.rec motive
    (fun values => ∀ value ∈ values, motive value)
    (fun entries => ∀ entry ∈ entries, motive entry.1 ∧ motive entry.2)
    (fun entry => motive entry.1 ∧ motive entry.2)
    unsigned negative bytes text array ?_ tag bool null ?_ ?_ ?_ ?_ ?_ value
  · intro entries hEntries
    exact map entries (fun entry hEntry => (hEntries entry hEntry).1)
      (fun entry hEntry => (hEntries entry hEntry).2)
  · intro value hValue
    cases hValue
  · intro value rest hValue hRest
    exact List.forall_mem_cons.mpr ⟨hValue, hRest⟩
  · intro entry hEntry
    cases hEntry
  · intro entry rest hEntry hRest
    exact List.forall_mem_cons.mpr ⟨hEntry, hRest⟩
  · intro key value hKey hValue
    exact ⟨hKey, hValue⟩

/-- Limits of one parse; every field is a `usize`. -/
structure CborLimits where
  maxMessageBytes : UInt64
  maxNesting : UInt64
  maxMapEntries : UInt64
  maxArrayEntries : UInt64
  maxByteStringBytes : UInt64
  maxTextStringBytes : UInt64
  deriving DecidableEq, Repr

/-- The limits of the v1 profile. -/
def CborLimits.default : CborLimits where
  maxMessageBytes := 1048576
  maxNesting := 16
  maxMapEntries := 128
  maxArrayEntries := 16384
  maxByteStringBytes := 65536
  maxTextStringBytes := 16384

inductive DecodeError where
  | messageTooLarge
  | unexpectedEof
  | unsupportedType
  | unsupportedTag (tag : UInt64)
  | indefiniteLength
  | nonCanonicalInteger
  | nonCanonicalMapOrder
  | invalidUtf8
  | nestingTooDeep
  | collectionTooLarge (kind : String)
  | trailingBytes
  | integerOutOfRange
  deriving DecidableEq, Repr

inductive EncodeError where
  | duplicateMapKey
  | profile (fault : DecodeError)
  | lengthOutOfRange
  | integerOutOfRange
  deriving DecidableEq, Repr

/-! ### Decoding -/

namespace Parser

def takeByte (parser : Cursor) : Except DecodeError (UInt8 × Cursor) :=
  orFault .unexpectedEof parser.next?

/-- The checked addition of the source overflows only past the end of every
input, where the slice is missing as well: both report the end of the input. -/
def take (parser : Cursor) (length : Nat) :
    Except DecodeError (Bytes × Cursor) :=
  orFault .unexpectedEof (parser.advance? length)

/-- The unsigned integer in the next `width` bytes, most significant first. -/
def takeInteger (parser : Cursor) (width : Nat) :
    Except DecodeError (UInt64 × Cursor) := do
  let (bytes, parser) ← take parser width
  return (UInt64.ofNat (beValue bytes), parser)

/-- The argument in the notation announced by the initial byte, and the width
of that notation. -/
def announcedArgument (parser : Cursor) (additional : UInt8) :
    Except DecodeError (UInt64 × Nat × Cursor) :=
  match additional.toNat with
  | 24 => (takeInteger parser 1).map fun (value, parser) => (value, 1, parser)
  | 25 => (takeInteger parser 2).map fun (value, parser) => (value, 2, parser)
  | 26 => (takeInteger parser 4).map fun (value, parser) => (value, 4, parser)
  | 27 => (takeInteger parser 8).map fun (value, parser) => (value, 8, parser)
  | info =>
      if info ≤ 23 then .ok (UInt64.ofNat info, 0, parser)
      -- 28 to 30 are reserved; 31 does not get here.
      else .error .indefiniteLength

/-- The shortest notation of a value is the only one accepted. -/
def canonicalWidth (value : UInt64) (width : Nat) : Bool :=
  match width with
  | 0 => decide (value ≤ 23)
  | 1 => decide (value ≥ 24)
  | 2 => decide (value > 0xff)
  | 4 => decide (value > 0xffff)
  | 8 => decide (value > 0xffffffff)
  | _ => false

def argument (parser : Cursor) (additional : UInt8) :
    Except DecodeError (UInt64 × Cursor) := do
  let (value, width, parser) ← announcedArgument parser additional
  rejectIf (!canonicalWidth value width) .nonCanonicalInteger
  return (value, parser)

def length (parser : Cursor) (additional : UInt8) (max : UInt64)
    (kind : String) : Except DecodeError (Nat × Cursor) := do
  let (length, parser) ← argument parser additional
  rejectIf (length > max) (.collectionTooLarge kind)
  return (length.toNat, parser)

/-- Each key has to follow the previous one in the order of the bytes that were
read for it. -/
def checkKeyOrder (previousKey : Option Bytes) (keyBytes : Bytes) :
    Except DecodeError Unit :=
  match previousKey with
  | some previous =>
      rejectIf (shortlex previous keyBytes ≠ .lt) .nonCanonicalMapOrder
  | none => .ok ()

def entries (item : Cursor → Except DecodeError (CborValue × Cursor)) :
    Nat → Option Bytes → Cursor →
      Except DecodeError (List (CborValue × CborValue) × Cursor)
  | 0, _, parser => .ok ([], parser)
  | count + 1, previousKey, parser => do
      let keyStart := parser.offset
      let (key, parser) ← item parser
      -- The order is that of the bytes as they were read, not of a new encoding.
      let keyBytes := Cursor.slice keyStart parser.offset parser.input
      checkKeyOrder previousKey keyBytes
      let (value, parser) ← item parser
      let (rest, parser) ← entries item count (some keyBytes) parser
      return ((key, value) :: rest, parser)

/-- The value announced by an initial byte, with `item` parsing one level
deeper. -/
def announced (limits : CborLimits)
    (item : Cursor → Except DecodeError (CborValue × Cursor))
    (major additional : UInt8) (parser : Cursor) :
    Except DecodeError (CborValue × Cursor) :=
  match major.toNat with
  | 0 => do
      let (value, parser) ← argument parser additional
      return (.unsigned value, parser)
  | 1 => do
      let (argument, parser) ← argument parser additional
      -- The argument `n` stands for `-1 - n`, which may be below the range of `i64`.
      let value ← orFault .integerOutOfRange (toI64? (-1 - argument.toNat))
      return (.negative value, parser)
  | 2 => do
      let (length, parser) ←
        length parser additional limits.maxByteStringBytes "byte string"
      let (bytes, parser) ← take parser length
      return (.bytes bytes, parser)
  | 3 => do
      let (length, parser) ←
        length parser additional limits.maxTextStringBytes "text string"
      let (bytes, parser) ← take parser length
      let text ← orFault .invalidUtf8 (ofUtf8? bytes)
      return (.text text, parser)
  | 4 => do
      let (length, parser) ←
        length parser additional limits.maxArrayEntries "array"
      let (values, parser) ← Cursor.times item length parser
      return (.array values, parser)
  | 5 => do
      let (length, parser) ← length parser additional limits.maxMapEntries "map"
      let (entries, parser) ← entries item length none parser
      return (.map entries, parser)
  | 6 => do
      let (tag, parser) ← argument parser additional
      -- The tag of a `COSE_Sign1` is the only one in the profile.
      rejectIf (tag ≠ 18) (.unsupportedTag tag)
      let (value, parser) ← item parser
      return (.tag tag value, parser)
  | 7 =>
      match additional.toNat with
      | 20 => .ok (.bool false, parser)
      | 21 => .ok (.bool true, parser)
      | 22 => .ok (.null, parser)
      -- Floats and all other simple values are outside the profile.
      | _ => .error .unsupportedType
  | _ => .error .unsupportedType

/-- `Parser::value` with `room` levels left: the depth is past `max_nesting`
exactly when no room is left. -/
def valueWithin (limits : CborLimits) :
    Nat → Cursor → Except DecodeError (CborValue × Cursor)
  | 0, _ => .error .nestingTooDeep
  | room + 1, parser => do
      let (initial, parser) ← takeByte parser
      let major := initial >>> 5
      let additional := initial &&& 0x1f
      rejectIf (additional = 31) .indefiniteLength
      announced limits (valueWithin limits room) major additional parser

def value (limits : CborLimits) (depth : Nat) (parser : Cursor) :
    Except DecodeError (CborValue × Cursor) :=
  valueWithin limits (limits.maxNesting.toNat + 1 - depth) parser

/-- The recursion of the source: the depth is checked first and the parts of a
value are parsed one level deeper. -/
theorem value_eq (limits : CborLimits) (depth : Nat) (parser : Cursor) :
    value limits depth parser =
      if depth > limits.maxNesting.toNat then .error .nestingTooDeep
      else (do
        let (initial, parser) ← takeByte parser
        rejectIf (initial &&& 0x1f = 31) .indefiniteLength
        announced limits (value limits (depth + 1)) (initial >>> 5)
          (initial &&& 0x1f) parser) := by
  unfold value
  split
  · rename_i hDeep
    rw [Nat.sub_eq_zero_of_le hDeep, valueWithin]
  · rename_i hDepth
    have hRoom : limits.maxNesting.toNat + 1 - depth =
        limits.maxNesting.toNat + 1 - (depth + 1) + 1 := by
      omega
    rw [hRoom, valueWithin]

end Parser

def decodeWithLimits (input : Bytes) (limits : CborLimits) :
    Except DecodeError CborValue := do
  rejectIf (input.length > limits.maxMessageBytes.toNat) .messageTooLarge
  let (value, parser) ← Parser.value limits 0 (Cursor.start input)
  -- One value has to fill the input.
  rejectIf (parser.offset ≠ input.length) .trailingBytes
  return value

/-- Decodes one fully-consumed deterministic-CBOR value. -/
def decode (input : Bytes) : Except DecodeError CborValue :=
  decodeWithLimits input .default

/-! ### Encoding -/

/-- The initial byte of `major` and the shortest notation of `value`. -/
def writeHead (major : UInt8) (value : UInt64) : Bytes :=
  let bytes := beBytes 8 value.toNat
  if value ≤ 23 then (bytes.drop 7).map ((major <<< 5) ||| ·)
  else if value ≤ 0xff then ((major <<< 5) ||| 24) :: bytes.drop 7
  else if value ≤ 0xffff then ((major <<< 5) ||| 25) :: bytes.drop 6
  else if value ≤ 0xffffffff then ((major <<< 5) ||| 26) :: bytes.drop 4
  else ((major <<< 5) ||| 27) :: bytes

def lengthU64 (value : Nat) : Except EncodeError UInt64 :=
  orFault .lengthOutOfRange (toU64? value)

/-- `encode` applied to what `encode_into` appended: the output has to parse. -/
def checked (appended : Except EncodeError Bytes) : Except EncodeError Bytes := do
  let output ← appended
  let _ ← (decode output).mapError .profile
  return output

/-- A map entry while its map is being written: the key as `encode` returns it
and what `encode_into` appends for the key and for the value. -/
structure EncodedEntry where
  sortKey : Bytes
  key : Except EncodeError Bytes
  value : Except EncodeError Bytes

/-- Some adjacent pair of the sorted entries has the same key bytes. -/
def hasDuplicateKey : List EncodedEntry → Bool
  | first :: second :: rest =>
      first.sortKey == second.sortKey || hasDuplicateKey (second :: rest)
  | _ => false

def writeEntries : List EncodedEntry → Except EncodeError Bytes
  | [] => .ok []
  | entry :: rest => do
      let key ← entry.key
      let value ← entry.value
      let rest ← writeEntries rest
      return key ++ value ++ rest

mutual

def encodeInto : CborValue → Except EncodeError Bytes
  | .unsigned value => .ok (writeHead 0 value)
  | .negative value => do
      let encoded ← orFault .integerOutOfRange (toU64? (-1 - value.toInt))
      return writeHead 1 encoded
  | .bytes value => do
      let length ← lengthU64 value.length
      return writeHead 2 length ++ value
  | .text value => do
      let length ← lengthU64 (utf8 value).length
      return writeHead 3 length ++ utf8 value
  | .array values => do
      let length ← lengthU64 values.length
      let items ← encodeItems values
      return writeHead 4 length ++ items
  | .map entries => do
      let entries ← encodeEntries entries
      let entries := sortByKey EncodedEntry.sortKey entries
      -- Equal keys are neighbours once the entries are sorted.
      rejectIf (hasDuplicateKey entries) .duplicateMapKey
      let length ← lengthU64 entries.length
      let items ← writeEntries entries
      return writeHead 5 length ++ items
  | .tag tag value => do
      rejectIf (tag ≠ 18) (.profile (.unsupportedTag tag))
      let item ← encodeInto value
      return writeHead 6 tag ++ item
  | .bool false => .ok [0xf4]
  | .bool true => .ok [0xf5]
  | .null => .ok [0xf6]

def encodeItems : List CborValue → Except EncodeError Bytes
  | [] => .ok []
  | value :: rest => do
      let item ← encodeInto value
      let items ← encodeItems rest
      return item ++ items

/-- The entries of a map with their encoded keys, in the order of the map. -/
def encodeEntries :
    List (CborValue × CborValue) → Except EncodeError (List EncodedEntry)
  | [] => .ok []
  | (key, value) :: rest => do
      let sortKey ← checked (encodeInto key)
      let entries ← encodeEntries rest
      -- The key is encoded again when its entry is written.
      return ⟨sortKey, encodeInto key, encodeInto value⟩ :: entries

end

/-- Encodes a value and parses the output, so that it is within the profile. -/
def encode (value : CborValue) : Except EncodeError Bytes :=
  checked (encodeInto value)

end Protocol
end RootPermit
