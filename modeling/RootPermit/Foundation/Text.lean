import Mathlib.Data.Nat.Digits.Lemmas
import RootPermit.Foundation.Bytes

/-!
# Texts as code units

Texts as the languages of the web have them: sequences of UTF-16 code units, which
need not be those of any characters.
-/

namespace RootPermit
namespace Foundation

abbrev Text : Type := List UInt16

/-- The code units of an ASCII literal, which are its bytes. -/
def literal (text : String) : Text :=
  (utf8 text).map UInt8.toUInt16

namespace Text

/-- The digits of a natural number. -/
def decimal (number : ℕ) : Text :=
  if number = 0 then [0x30]
  else (Nat.digits 10 number).reverse.map fun digit => UInt16.ofNat (0x30 + digit)

/-- `text.padStart(length, unit)`, for one code unit. -/
def padStart (length : ℕ) (unit : UInt16) (text : Text) : Text :=
  List.replicate (length - text.length) unit ++ text

def digitUnits : Text :=
  [0x30, 0x31, 0x32, 0x33, 0x34, 0x35, 0x36, 0x37, 0x38, 0x39]

theorem decimal_subset (number : ℕ) : decimal number ⊆ digitUnits := by
  intro unit h
  unfold decimal at h
  split at h
  · rw [List.mem_singleton] at h
    rw [h]
    decide
  · obtain ⟨digit, hDigit, rfl⟩ := List.mem_map.mp h
    have hAll : ∀ digit < 10, UInt16.ofNat (0x30 + digit) ∈ digitUnits := by decide
    exact hAll digit (Nat.digits_lt_base (by decide) (List.mem_reverse.mp hDigit))

theorem replicate_subset {units : Text} {count : ℕ} {unit : UInt16} (h : unit ∈ units) :
    List.replicate count unit ⊆ units := by
  intro other hOther
  rw [List.eq_of_mem_replicate hOther]
  exact h

theorem padStart_subset {units text : Text} {length : ℕ} {unit : UInt16}
    (hUnit : unit ∈ units) (hText : text ⊆ units) : padStart length unit text ⊆ units :=
  List.append_subset.mpr ⟨replicate_subset hUnit, hText⟩

end Text
end Foundation
end RootPermit
