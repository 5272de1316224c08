import RootPermit.Foundation.Bytes

/-!
# The texts of uuids

The services check a uuid by one regular expression, in upper and lower case; the
database stores its value and shows it in lower case.  Two texts that the expression takes
are one uuid exactly when they agree in lower case (`uuidText_eq_iff`).
-/

namespace RootPermit
namespace Hosted

def isHexDigit (char : Char) : Bool :=
  decide (('0' ≤ char ∧ char ≤ '9') ∨ ('a' ≤ char ∧ char ≤ 'f') ∨
    ('A' ≤ char ∧ char ≤ 'F'))

def isHyphen (char : Char) : Bool :=
  decide (char = '-')

def isVersion (char : Char) : Bool :=
  decide ('1' ≤ char ∧ char ≤ '8')

def isVariant (char : Char) : Bool :=
  decide (char ∈ [ '8', '9', 'a', 'b', 'A', 'B'])

/-- The classes of the characters of a UUID, from the left. -/
def uuidShape : List (Char → Bool) :=
  let hex := fun count => List.replicate count isHexDigit
  hex 8 ++ [isHyphen] ++ hex 4 ++ [isHyphen, isVersion] ++ hex 3 ++
    [isHyphen, isVariant] ++ hex 3 ++ [isHyphen] ++ hex 12

/-- The characters are of these classes, one for each. -/
def hasShape : List (Char → Bool) → List Char → Bool
  | [], [] => true
  | takes :: shape, char :: chars => takes char && hasShape shape chars
  | _, _ => false

def isUuid (value : String) : Bool :=
  hasShape uuidShape value.toList

/-- A text of a uuid as the database shows it once it is cast. -/
def uuidText (value : String) : String :=
  String.ofList (value.toList.map Char.toLower)

/-! ### The value of a uuid -/

def hexDigits : List Char := "0123456789abcdef".toList

/-- The value of a hexadecimal digit. -/
def hexValue (char : Char) : Nat :=
  hexDigits.idxOf char.toLower

def hexValues (chars : List Char) : List Nat :=
  (chars.filter isHexDigit).map hexValue

/-- The value of a uuid: its digits, whatever their case, without the hyphens. -/
def uuidValue (value : String) : List Nat :=
  hexValues value.toList

theorem toLower_mem_hexDigits {char : Char} (h : isHexDigit char = true) :
    char.toLower ∈ hexDigits := by
  have hAscii : ∀ number < 128, isHexDigit (Char.ofNat number) = true →
      (Char.ofNat number).toLower ∈ hexDigits := by
    decide
  have hRange : char.toNat < 128 := by
    simp only [isHexDigit, decide_eq_true_eq, Char.le_def, UInt32.le_iff_toNat_le] at h
    have hNines : ('9' : Char).val.toNat = 57 ∧ ('f' : Char).val.toNat = 102 ∧
        ('F' : Char).val.toNat = 70 := by
      decide
    rw [hNines.1, hNines.2.1, hNines.2.2] at h
    change char.val.toNat < 128
    omega
  have hChar := hAscii char.toNat hRange
  rw [Char.ofNat_toNat] at hChar
  exact hChar h

/-- Two digits have one value exactly when they agree in lower case. -/
theorem hexValue_eq_iff {first second : Char} (hFirst : isHexDigit first = true) :
    hexValue first = hexValue second ↔ first.toLower = second.toLower :=
  List.idxOf_inj (toLower_mem_hexDigits hFirst)

theorem hexValues_cons_of_digit {char : Char} (h : isHexDigit char = true)
    (chars : List Char) : hexValues (char :: chars) = hexValue char :: hexValues chars := by
  rw [hexValues, List.filter_cons_of_pos h, List.map_cons, hexValues]

theorem hexValues_cons_hyphen (chars : List Char) :
    hexValues ('-' :: chars) = hexValues chars := by
  rw [hexValues, List.filter_cons_of_neg (by decide), hexValues]

/-- A class takes digits only, or the hyphen only. -/
def DigitsOrHyphen (takes : Char → Bool) : Prop :=
  (∀ char, takes char = true → isHexDigit char = true) ∨
    ∀ char, takes char = true → char = '-'

/-- Texts of one shape have the same values exactly when they agree in lower case. -/
theorem hexValues_eq_iff {shape : List (Char → Bool)}
    (hShape : ∀ takes ∈ shape, DigitsOrHyphen takes) {first second : List Char}
    (hFirst : hasShape shape first = true) (hSecond : hasShape shape second = true) :
    hexValues first = hexValues second ↔
      first.map Char.toLower = second.map Char.toLower := by
  induction shape generalizing first second with
  | nil =>
      cases first with
      | cons => cases hFirst
      | nil =>
          cases second with
          | cons => cases hSecond
          | nil => exact iff_of_true rfl rfl
  | cons takes shape ih =>
      cases first with
      | nil => cases hFirst
      | cons left firstRest =>
      cases second with
      | nil => cases hSecond
      | cons right secondRest =>
          rw [hasShape, Bool.and_eq_true] at hFirst hSecond
          have hRest := ih (fun other hOther => hShape other (List.mem_cons_of_mem _ hOther))
            hFirst.2 hSecond.2
          rw [List.map_cons, List.map_cons, List.cons.injEq, ← hRest]
          rcases hShape takes List.mem_cons_self with hDigit | hHyphen
          · rw [hexValues_cons_of_digit (hDigit left hFirst.1),
              hexValues_cons_of_digit (hDigit right hSecond.1), List.cons.injEq,
              hexValue_eq_iff (hDigit left hFirst.1)]
          · rw [hHyphen left hFirst.1, hHyphen right hSecond.1, hexValues_cons_hyphen,
              hexValues_cons_hyphen, and_iff_right rfl]

theorem digitsOrHyphen_uuidShape : ∀ takes ∈ uuidShape, DigitsOrHyphen takes := by
  have hDigit : DigitsOrHyphen isHexDigit := .inl fun _ => id
  have hHyphen : DigitsOrHyphen isHyphen := .inr fun _ => of_decide_eq_true
  have hVersion : DigitsOrHyphen isVersion := by
    refine .inl fun char hChar => ?_
    obtain ⟨hLow, hHigh⟩ := of_decide_eq_true hChar
    refine decide_eq_true (.inl ⟨?_, ?_⟩)
    · exact Char.le_trans (by decide) hLow
    · exact Char.le_trans hHigh (by decide)
  have hVariant : DigitsOrHyphen isVariant := by
    refine .inl fun char hChar => ?_
    have hAll : [ '8', '9', 'a', 'b', 'A', 'B'].all isHexDigit = true := by decide
    exact List.all_eq_true.mp hAll char (of_decide_eq_true hChar)
  intro takes hTakes
  have hKinds : takes = isHexDigit ∨ takes = isHyphen ∨ takes = isVersion ∨
      takes = isVariant := by
    simp only [uuidShape, List.mem_append, List.mem_cons, List.mem_replicate,
      List.not_mem_nil, or_false] at hTakes
    tauto
  obtain rfl | rfl | rfl | rfl := hKinds
  · exact hDigit
  · exact hHyphen
  · exact hVersion
  · exact hVariant

/-- Two texts of uuids are cast to one text exactly when they have one value. -/
theorem uuidText_eq_iff {first second : String} (hFirst : isUuid first = true)
    (hSecond : isUuid second = true) :
    uuidText first = uuidText second ↔ uuidValue first = uuidValue second := by
  rw [uuidText, uuidText, String.ofList_inj, uuidValue, uuidValue,
    hexValues_eq_iff digitsOrHyphen_uuidShape hFirst hSecond]

end Hosted
end RootPermit
