import RootPermit.Protocol.Cbor

/-!
# The CBOR parser of the privileged helper

This module embeds `CborParser` and `valid_utf8` of `startup_contract.cpp`.  The
parser is a cursor over the input; it recurses on the nesting depth, so it is written
by recursion on the room that is left below the deepest level.  A `std::string` is
the list of its bytes.
-/

namespace RootPermit
namespace Helper

open Foundation

def kMaxManifestBytes : Nat := 1048576

def kMaxGraphActions : Nat := 16384

def kMaxInputs : Nat := 16384

/-- The errors of `ManifestError`; success is a value. -/
inductive ManifestError where
  | malformedCbor
  | nonCanonicalCbor
  | unsupportedVersion
  | missingField
  | unknownField
  | invalidField
  | duplicateInput
  | inputOrderInvalid
  | actionGraphInvalid
  deriving DecidableEq, Repr

inductive CborValue where
  | unsignedInteger (value : UInt64)
  | negativeInteger (value : Int64)
  | bytes (value : Bytes)
  | text (value : Bytes)
  | array (values : List CborValue)
  | map (entries : List (CborValue × CborValue))
  | nullValue
  deriving Repr

/-! ### Text -/

/-- The continuation bytes of a character, added to its code point. -/
def continuation : Nat → UInt32 → Bytes → Option (UInt32 × Bytes)
  | 0, codePoint, rest => some (codePoint, rest)
  | _ + 1, _, [] => none
  | count + 1, codePoint, next :: rest =>
      if next &&& 0xc0 ≠ 0x80 then none
      else continuation count ((codePoint <<< 6) ||| (next &&& 0x3f).toUInt32) rest

/-- The number of continuation bytes after a lead byte, and its part of the code
point. -/
def leadByte (lead : UInt8) : Option (Nat × UInt32) :=
  if 0xc2 ≤ lead ∧ lead ≤ 0xdf then some (1, (lead &&& 0x1f).toUInt32)
  else if 0xe0 ≤ lead ∧ lead ≤ 0xef then some (2, (lead &&& 0x0f).toUInt32)
  else if 0xf0 ≤ lead ∧ lead ≤ 0xf4 then some (3, (lead &&& 0x07).toUInt32)
  else none

/-- The code point needs this many continuation bytes, and is a scalar value. -/
def scalarOfLength (count : Nat) (codePoint : UInt32) : Bool :=
  !((count == 1 && decide (codePoint < 0x80)) ||
    (count == 2 && decide (codePoint < 0x800)) ||
    (count == 3 && decide (codePoint < 0x10000)) ||
    decide (0xd800 ≤ codePoint ∧ codePoint ≤ 0xdfff) ||
    decide (0x10ffff < codePoint))

/-- The loop of `valid_utf8`, with a bound on the number of characters. -/
def validUtf8Within : Nat → Bytes → Bool
  | _, [] => true
  | 0, _ :: _ => false
  | bound + 1, lead :: rest =>
      if lead ≤ 0x7f then validUtf8Within bound rest
      else
        match leadByte lead with
        | none => false
        | some (count, codePoint) =>
            if rest.length < count then false
            else
              match continuation count codePoint rest with
              | none => false
              | some (codePoint, rest) =>
                  scalarOfLength count codePoint && validUtf8Within bound rest

/-- There are no more characters than bytes. -/
def validUtf8 (bytes : Bytes) : Bool :=
  validUtf8Within bytes.length bytes

/-! ### Values -/

namespace CborParser

def takeByte (parser : Cursor) : Except ManifestError (UInt8 × Cursor) :=
  orFault .malformedCbor parser.next?

def argumentWidth? (additional : UInt8) : Option Nat :=
  match additional.toNat with
  | 24 => some 1
  | 25 => some 2
  | 26 => some 4
  | 27 => some 8
  | _ => none

/-- The shortest notation of a value is the only one accepted. -/
def minimal (width : Nat) (parsed : UInt64) : Bool :=
  (width == 1 && decide (parsed ≥ 24)) || (width == 2 && decide (parsed > 0xff)) ||
    (width == 4 && decide (parsed > 0xffff)) ||
    (width == 8 && decide (parsed > 0xffffffff))

def argumentValue (additional : UInt8) (parser : Cursor) :
    Except ManifestError (UInt64 × Cursor) :=
  if additional ≤ 23 then .ok (additional.toUInt64, parser)
  else do
    let width ← orFault .nonCanonicalCbor (argumentWidth? additional)
    let (bytes, parser) ← orFault .malformedCbor (parser.advance? width)
    let parsed := UInt64.ofNat (beValue bytes)
    rejectIf (minimal width parsed = false) .nonCanonicalCbor
    return (parsed, parser)

/-- The body of a byte or text string. -/
def body (argument : UInt64) (parser : Cursor) :
    Except ManifestError (Bytes × Cursor) := do
  rejectIf (argument > 65536) .invalidField
  orFault .invalidField (parser.advance? argument.toNat)

/-- Each key has to follow the previous one in the order of the bytes that were
read for it; the first key has an empty one before it. -/
def entries (item : Cursor → Except ManifestError (CborValue × Cursor)) :
    Nat → Bytes → Cursor →
      Except ManifestError (List (CborValue × CborValue) × Cursor)
  | 0, _, parser => .ok ([], parser)
  | count + 1, previousKey, parser => do
      let start := parser.offset
      let (key, parser) ← item parser
      let encodedKey := Cursor.slice start parser.offset parser.input
      rejectIf (previousKey ≠ [] ∧ shortlex previousKey encodedKey ≠ .lt)
        .nonCanonicalCbor
      let (value, parser) ← item parser
      let (rest, parser) ← entries item count encodedKey parser
      return ((key, value) :: rest, parser)

/-- The value announced by an initial byte, with `item` parsing one level deeper. -/
def announced (item : Cursor → Except ManifestError (CborValue × Cursor))
    (major additional : UInt8) (parser : Cursor) :
    Except ManifestError (CborValue × Cursor) :=
  match major.toNat with
  | 0 => do
      let (argument, parser) ← argumentValue additional parser
      return (.unsignedInteger argument, parser)
  | 1 => do
      let (argument, parser) ← argumentValue additional parser
      rejectIf (argument > 0x7fffffffffffffff) .invalidField
      return (.negativeInteger (Int64.ofInt (-1 - argument.toNat)), parser)
  | 2 => do
      let (argument, parser) ← argumentValue additional parser
      let (bytes, parser) ← body argument parser
      return (.bytes bytes, parser)
  | 3 => do
      let (argument, parser) ← argumentValue additional parser
      let (bytes, parser) ← body argument parser
      rejectIf (validUtf8 bytes = false) .invalidField
      return (.text bytes, parser)
  | 4 => do
      let (argument, parser) ← argumentValue additional parser
      rejectIf (kMaxGraphActions < argument.toNat) .invalidField
      let (values, parser) ← Cursor.times item argument.toNat parser
      return (.array values, parser)
  | 5 => do
      let (argument, parser) ← argumentValue additional parser
      rejectIf (128 < argument.toNat) .invalidField
      let (entries, parser) ← entries item argument.toNat [] parser
      return (.map entries, parser)
  | 7 => if additional = 22 then .ok (.nullValue, parser) else .error .malformedCbor
  | _ => .error .malformedCbor

/-- `CborParser::value` with `room` levels left: the depth is past 16 exactly when no
room is left. -/
def valueWithin : Nat → Cursor → Except ManifestError (CborValue × Cursor)
  | 0, _ => .error .invalidField
  | room + 1, parser => do
      let (initial, parser) ← takeByte parser
      rejectIf (initial &&& 0x1f = 31) .nonCanonicalCbor
      announced (valueWithin room) (initial >>> 5) (initial &&& 0x1f) parser

def value (depth : Nat) (parser : Cursor) :
    Except ManifestError (CborValue × Cursor) :=
  valueWithin (17 - depth) parser

/-- The recursion of the source: the depth is checked first and the parts of a value
are parsed one level deeper. -/
theorem value_eq (depth : Nat) (parser : Cursor) :
    value depth parser =
      if depth > 16 then .error .invalidField
      else (do
        let (initial, parser) ← takeByte parser
        rejectIf (initial &&& 0x1f = 31) .nonCanonicalCbor
        announced (value (depth + 1)) (initial >>> 5) (initial &&& 0x1f)
          parser) := by
  unfold value
  split
  · next hDeep =>
      have hRoom : 17 - depth = 0 := by omega
      rw [hRoom, valueWithin]
  · next hDepth =>
      have hRoom : 17 - depth = 17 - (depth + 1) + 1 := by omega
      rw [hRoom, valueWithin]

def parse (input : Bytes) : Except ManifestError CborValue := do
  rejectIf (kMaxManifestBytes < input.length) .invalidField
  let (value, parser) ← value 0 (Cursor.start input)
  rejectIf (parser.offset ≠ input.length) .malformedCbor
  return value

end CborParser

example : (CborParser.parse [0xa1, 0x01, 0x62, 0xc3, 0xa9]).isOk = true ∧
    (CborParser.parse [0xa1, 0x01, 0x62, 0xc3, 0x28]).isOk = false := by
  decide +kernel

end Helper
end RootPermit
