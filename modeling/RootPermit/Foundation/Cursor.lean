import RootPermit.Foundation.Outcome
import RootPermit.Foundation.Bytes

/-!
# Cursors and exact step parsers

A cursor is a byte string with a position in it.  A *step parser* advances a
cursor and returns a value; it is *exact* for an encoding when it returns a
value precisely on the bytes that encode it, for the values it accepts:

* what it returns was spelled by the bytes that it stepped over, and
* every accepted value is returned where its bytes stand next.

The position after a step is determined by the bytes that were read, so an
exact parser is described by one equivalence, and exactness composes.  One parser
*matches* another when it succeeds exactly where the other one returns a related value.
-/

namespace RootPermit
namespace Foundation

/-- A byte string being read, and the position of the next byte. -/
@[ext] structure Cursor where
  input : Bytes
  offset : Nat
  inBounds : offset ≤ input.length

namespace Cursor

/-- The start of an input. -/
def start (input : Bytes) : Cursor :=
  ⟨input, 0, Nat.zero_le _⟩

/-- The next byte, unless the input is exhausted. -/
def next? (cursor : Cursor) : Option (UInt8 × Cursor) :=
  if h : cursor.offset < cursor.input.length then
    some (cursor.input[cursor.offset], ⟨cursor.input, cursor.offset + 1, h⟩)
  else
    none

/-- The next `length` bytes, unless the input is shorter. -/
def advance? (cursor : Cursor) (length : Nat) : Option (Bytes × Cursor) :=
  if h : cursor.offset + length ≤ cursor.input.length then
    some ((cursor.input.drop cursor.offset).take length,
      ⟨cursor.input, cursor.offset + length, h⟩)
  else
    none

/-- The bytes between two positions of an input. -/
def slice (start stop : Nat) (input : Bytes) : Bytes :=
  (input.drop start).take (stop - start)

/-- The cursor `after` is reached from `before` by reading `bytes`. -/
def Reads (before : Cursor) (bytes : Bytes) (after : Cursor) : Prop :=
  after.input = before.input ∧
    after.offset = before.offset + bytes.length ∧
    bytes <+: before.input.drop before.offset

theorem reads_nil_iff {before after : Cursor} :
    before.Reads [] after ↔ after = before := by
  constructor
  · intro h
    exact Cursor.ext h.1 h.2.1
  · rintro rfl
    simp [Reads]

/-- Reading a concatenation is reading its parts one after the other. -/
theorem reads_append_iff {before after : Cursor} {first second : Bytes} :
    before.Reads (first ++ second) after ↔
      ∃ middle, before.Reads first middle ∧ middle.Reads second after := by
  constructor
  · rintro ⟨hInput, hOffset, hPrefix⟩
    have hFirst : first <+: before.input.drop before.offset :=
      (List.prefix_append first second).trans hPrefix
    have hBounds : before.offset + first.length ≤ before.input.length := by
      have hLength := hFirst.length_le
      have hBefore := before.inBounds
      rw [List.length_drop] at hLength
      omega
    refine ⟨⟨before.input, before.offset + first.length, hBounds⟩,
      ⟨rfl, rfl, hFirst⟩, hInput, ?_, ?_⟩
    · rw [hOffset, List.length_append, Nat.add_assoc]
    · obtain ⟨rest, hRest⟩ := hPrefix
      refine ⟨rest, ?_⟩
      rw [List.append_assoc] at hRest
      rw [← List.drop_drop, ← hRest, List.drop_left]
  · rintro ⟨middle, ⟨hInput, hOffset, rest, hRest⟩,
      hInput', hOffset', tail, hTail⟩
    refine ⟨hInput'.trans hInput, ?_, tail, ?_⟩
    · rw [hOffset', hOffset, List.length_append, Nat.add_assoc]
    · rw [hInput, hOffset, ← List.drop_drop, ← hRest, List.drop_left] at hTail
      rw [← hRest, ← hTail, List.append_assoc]

theorem reads_cons_iff {before after : Cursor} {byte : UInt8} {rest : Bytes} :
    before.Reads (byte :: rest) after ↔
      ∃ middle, before.Reads [byte] middle ∧ middle.Reads rest after := by
  rw [← List.singleton_append, reads_append_iff]

/-- The slice between two positions is what was read between them. -/
theorem Reads.slice_eq {before after : Cursor} {bytes : Bytes}
    (h : before.Reads bytes after) :
    slice before.offset after.offset after.input = bytes := by
  obtain ⟨hInput, hOffset, rest, hRest⟩ := h
  simp [slice, hInput, hOffset, ← hRest]

/-- Reading a whole input from its start ends at its length. -/
theorem reads_start_iff {input bytes : Bytes} :
    (∃ after, (start input).Reads bytes after ∧
      after.offset = input.length) ↔ input = bytes := by
  constructor
  · rintro ⟨after, ⟨-, hOffset, hPrefix⟩, hEnd⟩
    simp only [start, List.drop_zero, Nat.zero_add] at hOffset hPrefix
    exact (hPrefix.eq_of_length (hOffset.symm.trans hEnd)).symm
  · rintro rfl
    exact ⟨⟨input, input.length, Nat.le_refl _⟩, by simp [Reads, start]⟩

theorem next?_eq_some_iff {before after : Cursor} {byte : UInt8} :
    before.next? = some (byte, after) ↔ before.Reads [byte] after := by
  unfold next? Reads
  rw [List.singleton_prefix_iff_head?_eq_some, List.head?_drop]
  constructor
  · intro h
    split at h
    · rename_i hBounds
      simp only [Option.some.injEq, Prod.mk.injEq] at h
      obtain ⟨rfl, rfl⟩ := h
      exact ⟨rfl, rfl, List.getElem?_eq_getElem hBounds⟩
    · cases h
  · rintro ⟨hInput, hOffset, hByte⟩
    obtain ⟨hBounds, hByte⟩ := List.getElem?_eq_some_iff.mp hByte
    rw [dif_pos hBounds, hByte]
    exact congrArg (fun cursor => some (byte, cursor))
      (Cursor.ext hInput.symm hOffset.symm)

theorem advance?_eq_some_iff {before after : Cursor} {length : Nat}
    {bytes : Bytes} :
    before.advance? length = some (bytes, after) ↔
      bytes.length = length ∧ before.Reads bytes after := by
  unfold advance? Reads
  constructor
  · intro h
    split at h
    · rename_i hBounds
      simp only [Option.some.injEq, Prod.mk.injEq] at h
      obtain ⟨rfl, rfl⟩ := h
      have hLength : ((before.input.drop before.offset).take length).length =
          length := by
        rw [List.length_take, List.length_drop]
        omega
      exact ⟨hLength, rfl, by rw [hLength], List.take_prefix _ _⟩
    · cases h
  · rintro ⟨rfl, hInput, hOffset, hPrefix⟩
    have hBounds : before.offset + bytes.length ≤ before.input.length := by
      rw [← hOffset, ← hInput]
      exact after.inBounds
    rw [dif_pos hBounds, ← List.prefix_iff_eq_take.mp hPrefix]
    exact congrArg (fun cursor => some (bytes, cursor))
      (Cursor.ext hInput.symm hOffset.symm)

/-! ### Exact step parsers -/

section Exact

variable {ε α : Type}

/-- The parser returns exactly the accepted values, each on its encoding. -/
def Exact (step : Cursor → Except ε (α × Cursor)) (accepts : α → Prop)
    (encoding : α → Bytes) : Prop :=
  ∀ before value after,
    step before = .ok (value, after) ↔
      accepts value ∧ before.Reads (encoding value) after

/-- Run a step parser a fixed number of times. -/
def times (step : Cursor → Except ε (α × Cursor)) :
    Nat → Cursor → Except ε (List α × Cursor)
  | 0, cursor => .ok ([], cursor)
  | count + 1, cursor => do
      let (value, cursor) ← step cursor
      let (values, cursor) ← times step count cursor
      return (value :: values, cursor)

theorem times_succ_eq_ok_iff {step : Cursor → Except ε (α × Cursor)}
    {count : Nat} {before after : Cursor} {values : List α} :
    times step (count + 1) before = .ok (values, after) ↔
      ∃ value rest middle, values = value :: rest ∧
        step before = .ok (value, middle) ∧
        times step count middle = .ok (rest, after) := by
  simp only [times, bind_eq_ok_iff, Prod.exists, pure_eq_ok, Except.ok.injEq,
    Prod.mk.injEq]
  constructor
  · rintro ⟨value, middle, hStep, rest, last, hRest, rfl, rfl⟩
    exact ⟨value, rest, middle, rfl, hStep, hRest⟩
  · rintro ⟨value, rest, middle, rfl, hStep, hRest⟩
    exact ⟨value, middle, hStep, rest, after, hRest, rfl, rfl⟩

/-- Repetition of an exact parser is exact for lists of the given length,
encoded by concatenation. -/
theorem Exact.times {step : Cursor → Except ε (α × Cursor)}
    {accepts : α → Prop} {encoding : α → Bytes}
    (hStep : Exact step accepts encoding) (count : Nat) :
    Exact (Cursor.times step count)
      (fun values => values.length = count ∧ ∀ value ∈ values, accepts value)
      (fun values => values.flatMap encoding) := by
  induction count with
  | zero =>
      intro before values after
      cases values with
      | nil => simp [Cursor.times, reads_nil_iff, eq_comm]
      | cons value values => simp [Cursor.times]
  | succ count ih =>
      intro before values after
      rw [times_succ_eq_ok_iff]
      constructor
      · rintro ⟨value, rest, middle, rfl, hHead, hTail⟩
        obtain ⟨hAccepts, hReads⟩ := (hStep _ _ _).mp hHead
        obtain ⟨⟨hLength, hAll⟩, hReadsRest⟩ := (ih _ _ _).mp hTail
        refine ⟨⟨by simp [hLength], ?_⟩, ?_⟩
        · exact List.forall_mem_cons.mpr ⟨hAccepts, hAll⟩
        · simp only [List.flatMap_cons, reads_append_iff]
          exact ⟨middle, hReads, hReadsRest⟩
      · rintro ⟨⟨hLength, hAll⟩, hReads⟩
        cases values with
        | nil => simp at hLength
        | cons value rest =>
            simp only [List.flatMap_cons, reads_append_iff] at hReads
            obtain ⟨middle, hHead, hTail⟩ := hReads
            obtain ⟨hAccepts, hRest⟩ := List.forall_mem_cons.mp hAll
            refine ⟨value, rest, middle, rfl, ?_, ?_⟩
            · exact (hStep _ _ _).mpr ⟨hAccepts, hHead⟩
            · exact (ih _ _ _).mpr ⟨⟨by simpa using hLength, hRest⟩, hTail⟩

/-- The encodings that an exact parser reads are prefix-free. -/
theorem Exact.eq_of_isPrefix {step : Cursor → Except ε (α × Cursor)}
    {accepts : α → Prop} {encoding : α → Bytes}
    (hStep : Exact step accepts encoding) {first second : α}
    (hFirst : accepts first) (hSecond : accepts second)
    (hPrefix : encoding first <+: encoding second) : first = second := by
  obtain ⟨rest, hRest⟩ := hPrefix
  obtain ⟨after, hReads, -⟩ := reads_start_iff.mpr (rfl : encoding second = _)
  -- Both encodings are read from the start of the longer one.
  have hReadsFirst : ∃ middle,
      (start (encoding second)).Reads (encoding first) middle := by
    have hSplit := hReads
    rw [← hRest, reads_append_iff] at hSplit
    obtain ⟨middle, hMiddle, -⟩ := hSplit
    rw [hRest] at hMiddle
    exact ⟨middle, hMiddle⟩
  obtain ⟨middle, hMiddle⟩ := hReadsFirst
  have hValue := (hStep _ _ _).mpr ⟨hFirst, hMiddle⟩
  rw [(hStep _ _ _).mpr ⟨hSecond, hReads⟩] at hValue
  cases hValue
  rfl

end Exact

/-! ### Matching step parsers -/

section Matching

variable {ε δ α β : Type}

/-- The first parser returns the values that are related to those of the second one,
where that one returns them. -/
def Matches (first : Cursor → Except ε (α × Cursor))
    (second : Cursor → Except δ (β × Cursor)) (same : α → β → Prop) : Prop :=
  ∀ before value after,
    first before = .ok (value, after) ↔
      ∃ value', same value value' ∧ second before = .ok (value', after)

theorem Matches.times {first : Cursor → Except ε (α × Cursor)}
    {second : Cursor → Except δ (β × Cursor)} {same : α → β → Prop}
    (h : Matches first second same) (count : Nat) :
    Matches (times first count) (times second count) (List.Forall₂ same) := by
  induction count with
  | zero =>
      intro before values after
      simp only [Cursor.times, Except.ok.injEq, Prod.mk.injEq]
      constructor
      · rintro ⟨rfl, rfl⟩
        exact ⟨[], .nil, rfl, rfl⟩
      · rintro ⟨_, hSame, rfl, rfl⟩
        exact ⟨(List.forall₂_nil_right_iff.mp hSame).symm, rfl⟩
  | succ count ih =>
      intro before values after
      simp only [times_succ_eq_ok_iff]
      constructor
      · rintro ⟨value, rest, middle, rfl, hValue, hRest⟩
        obtain ⟨value', hSame, hValue'⟩ := (h _ _ _).mp hValue
        obtain ⟨rest', hTail, hRest'⟩ := (ih _ _ _).mp hRest
        exact ⟨value' :: rest', .cons hSame hTail, value', rest', middle, rfl, hValue',
          hRest'⟩
      · rintro ⟨_, hSame, value', rest', middle, rfl, hValue', hRest'⟩
        obtain ⟨value, rest, hHead, hTail, rfl⟩ := List.forall₂_cons_right_iff.mp hSame
        exact ⟨value, rest, middle, rfl, (h _ _ _).mpr ⟨value', hHead, hValue'⟩,
          (ih _ _ _).mpr ⟨rest', hTail, hRest'⟩⟩

end Matching

end Cursor
end Foundation
end RootPermit
