import RootPermit.Helper.Utf8

/-!
# The text check over a span

`valid_utf8` of `startup_contract.cpp` reads a span by index, and moves the index past
the byte it reads both at the head of its loop and in the loop over the continuation
bytes.  A `std::span` does not check an index, so a read past the end is a fault of its
own here.  The check has none (`Span.validUtf8_eq`): the byte behind an index is always
the next one of the bytes that are left, and the check returns what `validUtf8` does.
-/

namespace RootPermit
namespace Helper
namespace Span

open Foundation
open Foundation.Utf8

/-- How a loop over a span fails to return. -/
inductive Fault where
  /-- It read the byte at this index, which the span does not have. -/
  | pastEnd (index : Nat)
  /-- It went on for more turns than its bound. -/
  | running
  deriving DecidableEq, Repr

/-- The byte of `bytes[index++]`, and the index after it. -/
def read (bytes : Bytes) (index : Nat) : Except Fault (UInt8 × Nat) :=
  match bytes[index]? with
  | some byte => .ok (byte, index + 1)
  | none => .error (.pastEnd index)

/-- The loop over the continuation bytes; there is no code point when it returns
`false`. -/
def continuation (bytes : Bytes) :
    Nat → UInt32 → Nat → Except Fault (Option (UInt32 × Nat))
  | 0, codePoint, index => return some (codePoint, index)
  | count + 1, codePoint, index => do
      let (next, index) ← read bytes index
      if next &&& 0xc0 ≠ 0x80 then return none
      else
        continuation bytes count ((codePoint <<< 6) ||| (next &&& 0x3f).toUInt32) index

/-- One turn of the outer loop, with the index that the next one starts at; there is
none when it returns `false`. -/
def turn (bytes : Bytes) (index : Nat) : Except Fault (Option Nat) := do
  let (lead, index) ← read bytes index
  if lead ≤ 0x7f then return some index
  else
    match leadByte lead with
    | none => return none
    | some (count, codePoint) =>
        -- A read never moves the index past the end, so the difference does not wrap.
        if bytes.length - index < count then return none
        else
          match ← continuation bytes count codePoint index with
          | none => return none
          | some (codePoint, index) =>
              if scalarOfLength count codePoint then return some index
              else return none

/-- The outer loop, with a bound on its turns. -/
def loop (bytes : Bytes) : Nat → Nat → Except Fault Bool
  | turns, index =>
      if index < bytes.length then
        match turns with
        | 0 => .error .running
        | turns + 1 => do
            match ← turn bytes index with
            | none => return false
            | some index => loop bytes turns index
      else return true

/-- Every turn reads a byte that no other turn reads. -/
def validUtf8 (bytes : Bytes) : Except Fault Bool :=
  loop bytes bytes.length 0

/-! ### Reads -/

/-- A read takes the first of the bytes that are left. -/
theorem read_of_drop {bytes rest : Bytes} {index : Nat} {byte : UInt8}
    (h : bytes.drop index = byte :: rest) :
    read bytes index = .ok (byte, index + 1) ∧ bytes.drop (index + 1) = rest := by
  have hRead : bytes[index]? = some byte := by
    rw [← List.head?_drop, h]
    rfl
  have hRest : bytes.drop (index + 1) = rest := by
    rw [← List.tail_drop, h]
    rfl
  exact ⟨by rw [read, hRead], hRest⟩

/-! ### The loops -/

/-- With enough bytes left, the inner loop reads what the list of them holds. -/
theorem continuation_eq {bytes : Bytes} {count index : Nat} {codePoint : UInt32}
    (h : count ≤ bytes.length - index) :
    continuation bytes count codePoint index =
      .ok ((Helper.continuation count codePoint (bytes.drop index)).map fun read =>
        (read.1, index + count)) := by
  induction count generalizing codePoint index with
  | zero => rfl
  | succ count ih =>
      cases hLeft : bytes.drop index with
      | nil =>
          have hLength := congrArg List.length hLeft
          simp only [List.length_drop, List.length_nil] at hLength
          omega
      | cons next rest =>
          obtain ⟨hRead, hRest⟩ := read_of_drop hLeft
          rw [continuation, hRead, Helper.continuation]
          by_cases hMark : next &&& 0xc0 ≠ 0x80
          · simp only [bind, Except.bind, if_pos hMark]
            rfl
          · have hRoom : count ≤ bytes.length - (index + 1) := by omega
            simp only [bind, Except.bind, if_neg hMark, ih hRoom, hRest]
            rw [show index + 1 + count = index + (count + 1) by omega]

/-- The inner loop leaves the bytes after those that it read. -/
theorem rest_of_continuation {count : Nat} {codePoint codePoint' : UInt32}
    {rest rest' : Bytes}
    (h : Helper.continuation count codePoint rest = some (codePoint', rest')) :
    rest' = rest.drop count := by
  induction count generalizing codePoint rest with
  | zero =>
      cases h
      rfl
  | succ count ih =>
      cases rest with
      | nil => cases h
      | cons next rest =>
          rw [Helper.continuation] at h
          split at h
          · cases h
          · exact ih h

/-- A turn reads within the span and moves the index forward, and the check of the
bytes from the index on goes on with those from the next one on. -/
theorem turn_of_drop {bytes rest : Bytes} {index : Nat} {lead : UInt8} (bound : Nat)
    (h : bytes.drop index = lead :: rest) :
    ∃ next?, turn bytes index = .ok next? ∧
      (∀ next, next? = some next → index < next ∧ next ≤ bytes.length) ∧
      validUtf8Within (bound + 1) (lead :: rest) =
        match next? with
        | none => false
        | some next => validUtf8Within bound (bytes.drop next) := by
  obtain ⟨hRead, hRest⟩ := read_of_drop h
  have hLength : rest.length = bytes.length - (index + 1) := by
    rw [← hRest, List.length_drop]
  have hIndex : index < bytes.length := by
    have hLeft := congrArg List.length h
    simp only [List.length_drop, List.length_cons] at hLeft
    omega
  rw [validUtf8Within]
  simp only [turn, hRead, bind, Except.bind]
  by_cases hAscii : lead ≤ 0x7f
  · refine ⟨some (index + 1), if_pos hAscii, ?_, ?_⟩
    · intro next hNext
      cases hNext
      omega
    · rw [if_pos hAscii, ← hRest]
  rw [if_neg hAscii, if_neg hAscii]
  cases hLead : leadByte lead with
  | none => exact ⟨none, rfl, by simp, rfl⟩
  | some first =>
      obtain ⟨count, codePoint⟩ := first
      dsimp only
      rw [hLength]
      by_cases hRoom : bytes.length - (index + 1) < count
      · exact ⟨none, if_pos hRoom, by simp, if_pos hRoom⟩
      rw [if_neg hRoom, if_neg hRoom, continuation_eq (by omega), hRest]
      cases hContinued : Helper.continuation count codePoint rest with
      | none => exact ⟨none, rfl, by simp, rfl⟩
      | some read =>
          obtain ⟨codePoint', rest'⟩ := read
          have hRest' : rest' = bytes.drop (index + 1 + count) := by
            rw [rest_of_continuation hContinued, ← hRest, List.drop_drop]
          simp only [Option.map_some]
          by_cases hScalar : scalarOfLength count codePoint' = true
          · refine ⟨some (index + 1 + count), by rw [if_pos hScalar]; rfl, ?_, ?_⟩
            · intro next hNext
              cases hNext
              omega
            · rw [hScalar, Bool.true_and, hRest']
          · refine ⟨none, by rw [if_neg hScalar]; rfl, by simp, ?_⟩
            rw [Bool.not_eq_true] at hScalar
            rw [hScalar, Bool.false_and]

/-- With a turn for every byte that is left, the loop returns what the check of these
bytes does. -/
theorem loop_eq {bytes : Bytes} {turns index : Nat} (hIndex : index ≤ bytes.length)
    (hTurns : bytes.length - index ≤ turns) :
    loop bytes turns index = .ok (validUtf8Within turns (bytes.drop index)) := by
  -- The induction is on the turns that are left; each one moves the index forward.
  induction turns generalizing index with
  | zero =>
      have hEnd : ¬ index < bytes.length := by omega
      rw [loop, if_neg hEnd, List.drop_eq_nil_of_le (by omega), validUtf8Within]
      rfl
  | succ turns ih =>
      by_cases hMore : index < bytes.length
      · rw [loop, if_pos hMore, List.drop_eq_getElem_cons hMore]
        obtain ⟨next?, hTurn, hForward, hCheck⟩ :=
          turn_of_drop turns (List.drop_eq_getElem_cons hMore)
        rw [hCheck]
        simp only [bind, Except.bind, hTurn]
        cases next? with
        | none => rfl
        | some next =>
            obtain ⟨hAfter, hWithin⟩ := hForward next rfl
            exact ih hWithin (by omega)
      · rw [loop, if_neg hMore, List.drop_eq_nil_of_le (by omega), validUtf8Within]
        rfl

/-- The check reads within the span and returns. -/
theorem validUtf8_eq (bytes : Bytes) :
    validUtf8 bytes = .ok (Helper.validUtf8 bytes) := by
  rw [validUtf8, loop_eq (Nat.zero_le _) (by omega), List.drop_zero]
  rfl

/-- On every byte string, the check reads no index past the end and returns.  It
accepts the concatenations of encodings of scalar values, and these are the byte strings
that the decoder of the protocol takes for text. -/
theorem validUtf8_exact (bytes : Bytes) :
    ∃ accepted, validUtf8 bytes = .ok accepted ∧
      (accepted = true ↔
        ∃ scalars : List Char, bytes = scalars.flatMap String.utf8EncodeChar) ∧
      (accepted = true ↔ ∃ text, ofUtf8? bytes = some text) := by
  refine ⟨Helper.validUtf8 bytes, validUtf8_eq bytes, ?_, ?_⟩
  · rw [validUtf8_iff, spells_iff]
  · simp only [validUtf8_iff, ofUtf8?_eq_some_iff]

/-- An overlong form, a surrogate and a character cut short behind a letter. -/
example : validUtf8 [0x61, 0xc0, 0xaf] = .ok false ∧
    validUtf8 [0x61, 0xed, 0xa0, 0x80] = .ok false ∧
    validUtf8 [0x61, 0xe2, 0x82] = .ok false ∧
    validUtf8 [0x61, 0xe2, 0x82, 0xac] = .ok true := by
  decide

end Span
end Helper
end RootPermit
