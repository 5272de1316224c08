import Mathlib.Data.List.Basic
import Mathlib.Data.List.Infix
import Mathlib.Data.Nat.ModEq
import Mathlib.Tactic.Ring
import Mathlib.Tactic.Linarith

/-!
# Byte strings, fixed-length arrays and big-endian integers

Byte strings are lists of `UInt8`.  Three views of them recur in wire formats:

* arrays of a length fixed by their type (`ByteArr n`);
* the UTF-8 bytes of a text and, conversely, the text that a byte string
  spells, when it spells one;
* unsigned integers written most significant byte first.
-/

namespace RootPermit
namespace Foundation

/-- A byte string. -/
abbrev Bytes := List UInt8

/-- A byte array whose length is part of its type. -/
abbrev ByteArr (n : Nat) := { bytes : Bytes // bytes.length = n }

/-- The conversion of a byte string into an array of fixed length. -/
def ByteArr.ofBytes? (n : Nat) (bytes : Bytes) : Option (ByteArr n) :=
  if h : bytes.length = n then some ⟨bytes, h⟩ else none

@[simp] theorem ByteArr.ofBytes?_eq_some_iff {n : Nat} {bytes : Bytes}
    {array : ByteArr n} :
    ByteArr.ofBytes? n bytes = some array ↔ array.val = bytes := by
  unfold ByteArr.ofBytes?
  by_cases h : bytes.length = n
  · rw [dif_pos h, Option.some.injEq, Subtype.ext_iff]
    exact eq_comm
  · rw [dif_neg h]
    constructor
    · intro hNone
      cases hNone
    · intro hEq
      exact absurd (hEq ▸ array.property) h

/-- Bytes of the right number are an array. -/
theorem ByteArr.ofBytes?_ne_none {n : Nat} {bytes : Bytes} (h : bytes.length = n) :
    ByteArr.ofBytes? n bytes ≠ none :=
  Option.ne_none_iff_exists'.mpr ⟨⟨bytes, h⟩, ByteArr.ofBytes?_eq_some_iff.mpr rfl⟩

@[simp] theorem ByteArr.ofBytes?_val {n : Nat} (array : ByteArr n) :
    ByteArr.ofBytes? n array.val = some array :=
  ByteArr.ofBytes?_eq_some_iff.mpr rfl

/-- The array of `n` copies of one byte. -/
def ByteArr.fill (n : Nat) (byte : UInt8) : ByteArr n :=
  ⟨List.replicate n byte, List.length_replicate⟩

/-! ### Text -/

/-- The UTF-8 bytes of a text. -/
def utf8 (text : String) : Bytes :=
  text.toByteArray.data.toList

/-- The text spelled by a byte string, when it is valid UTF-8. -/
def ofUtf8? (bytes : Bytes) : Option String :=
  String.fromUTF8? ⟨bytes.toArray⟩

theorem utf8_injective {first second : String}
    (h : utf8 first = utf8 second) : first = second := by
  apply String.toByteArray_inj.mp
  apply ByteArray.ext
  exact Array.toList_inj.mp h

@[simp] theorem ofUtf8?_eq_some_iff {bytes : Bytes} {text : String} :
    ofUtf8? bytes = some text ↔ utf8 text = bytes := by
  unfold ofUtf8? String.fromUTF8?
  by_cases hValid : (ByteArray.mk bytes.toArray).IsValidUTF8
  · rw [dif_pos hValid, Option.some.injEq]
    constructor
    · rintro rfl
      rfl
    · intro hBytes
      apply utf8_injective
      exact hBytes.symm
  · rw [dif_neg hValid]
    constructor
    · intro hNone
      cases hNone
    · intro hBytes
      refine absurd ?_ hValid
      have hArray : ByteArray.mk bytes.toArray = text.toByteArray := by
        apply ByteArray.ext
        rw [← hBytes]
        simp [utf8]
      rw [hArray]
      exact text.isValidUTF8

/-! ### Big-endian integers -/

/-- The `width` low bytes of `n`, most significant first. -/
def beBytes : Nat → Nat → Bytes
  | 0, _ => []
  | width + 1, n => UInt8.ofNat (n / 256 ^ width) :: beBytes width n

/-- The integer written by a byte string, most significant byte first. -/
def beValue : Bytes → Nat
  | [] => 0
  | byte :: rest => byte.toNat * 256 ^ rest.length + beValue rest

@[simp] theorem length_beBytes (width n : Nat) :
    (beBytes width n).length = width := by
  induction width with
  | zero => rfl
  | succ width ih => simp [beBytes, ih]

theorem beValue_lt (bytes : Bytes) : beValue bytes < 256 ^ bytes.length := by
  induction bytes with
  | nil => simp [beValue]
  | cons byte rest ih =>
      have hByte : byte.toNat + 1 ≤ 256 := byte.toNat_lt
      calc
        beValue (byte :: rest)
            < byte.toNat * 256 ^ rest.length + 256 ^ rest.length := by
              simp only [beValue]
              omega
        _ = (byte.toNat + 1) * 256 ^ rest.length := by ring
        _ ≤ 256 * 256 ^ rest.length := Nat.mul_le_mul_right _ hByte
        _ = 256 ^ (byte :: rest).length := by
              rw [List.length_cons, Nat.pow_succ, Nat.mul_comm]

theorem beValue_beBytes (width n : Nat) :
    beValue (beBytes width n) = n % 256 ^ width := by
  induction width with
  | zero => simp [beBytes, beValue, Nat.mod_one]
  | succ width ih =>
      have hDigit : (UInt8.ofNat (n / 256 ^ width)).toNat =
          n / 256 ^ width % 256 := by
        simp
      rw [beBytes, beValue, ih, length_beBytes, hDigit, Nat.pow_succ,
        Nat.mod_mul]
      ring

theorem beValue_beBytes_of_lt {width n : Nat} (h : n < 256 ^ width) :
    beValue (beBytes width n) = n := by
  rw [beValue_beBytes, Nat.mod_eq_of_lt h]

/-- The low bytes of a number do not depend on its higher digits. -/
theorem beBytes_add_mul (width n k : Nat) :
    beBytes width (k * 256 ^ width + n) = beBytes width n := by
  induction width generalizing k with
  | zero => rfl
  | succ width ih =>
      have hSplit : k * 256 ^ (width + 1) + n = (k * 256) * 256 ^ width + n := by
        ring
      have hDigit : (k * 256 ^ (width + 1) + n) / 256 ^ width =
          n / 256 ^ width + 256 * k := by
        rw [hSplit, Nat.add_comm, Nat.add_mul_div_right _ _ (by positivity)]
        ring
      rw [beBytes, beBytes, hDigit, hSplit, ih]
      congr 1
      apply UInt8.toNat_inj.mp
      simp

/-- Reading the bytes of an integer and writing it back at the same width
gives the same bytes: the fixed-width notation has no second spelling. -/
theorem beBytes_beValue (bytes : Bytes) :
    beBytes bytes.length (beValue bytes) = bytes := by
  induction bytes with
  | nil => rfl
  | cons byte rest ih =>
      have hRest := beValue_lt rest
      have hDigit : (byte.toNat * 256 ^ rest.length + beValue rest) /
          256 ^ rest.length = byte.toNat := by
        rw [Nat.mul_comm, Nat.mul_add_div (by positivity),
          Nat.div_eq_of_lt hRest, Nat.add_zero]
      rw [List.length_cons, beBytes, beValue, hDigit, beBytes_add_mul, ih]
      simp

/-- The trailing bytes of a wide notation are the narrow notation. -/
theorem drop_beBytes (extra width n : Nat) :
    (beBytes (extra + width) n).drop extra = beBytes width n := by
  induction extra with
  | zero => simp
  | succ extra ih =>
      rw [Nat.add_right_comm, beBytes, List.drop_succ_cons, ih]

end Foundation
end RootPermit
