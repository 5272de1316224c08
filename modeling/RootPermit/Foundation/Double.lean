import Mathlib.Data.Int.Log
import Mathlib.Data.Rat.Floor
import RootPermit.Foundation.Text

/-!
# Double-precision numbers

Numbers as the languages of the web have them: the exact value of a finite one is a
rational, and arithmetic rounds the exact result to the nearest double, ties to even.
The sign of zero is left out, which neither a comparison nor a text shows.

The text of a number has the fewest digits that are read back as it.
-/

namespace RootPermit
namespace Foundation

inductive Double where
  | nan
  | infinity (negative : Bool)
  | finite (value : ℚ)
  deriving DecidableEq, Repr

namespace Double

/-! ### Rounding -/

/-- The nearest integer; the even one of two. -/
def roundEven (value : ℚ) : ℤ :=
  let below := ⌊value⌋
  if value - below < 1 / 2 then below
  else if 1 / 2 < value - below then below + 1
  else below + below % 2

/-- The nearest double: 53 significant bits, fewer below the smallest normal number,
and none from 2^1024 on. -/
def ofRat (value : ℚ) : Double :=
  if value = 0 then .finite 0
  else
    let exponent := max (Int.log 2 |value| - 52) (-1074)
    let rounded : ℚ := roundEven (value / 2 ^ exponent) * (2 : ℚ) ^ exponent
    if 2 ^ 1024 ≤ |rounded| then .infinity (decide (value < 0)) else .finite rounded

def ofInt (value : ℤ) : Double :=
  .finite value

/-! ### Comparison and arithmetic -/

/-- `left <= right`; false where one of them is not a number. -/
def le : Double → Double → Bool
  | .finite left, .finite right => decide (left ≤ right)
  | .infinity true, .finite _ => true
  | .finite _, .infinity false => true
  | .infinity left, .infinity right => left || !right
  | _, _ => false

/-- `left < right`. -/
def lt : Double → Double → Bool
  | .finite left, .finite right => decide (left < right)
  | .infinity true, .finite _ => true
  | .finite _, .infinity false => true
  | .infinity left, .infinity right => left && !right
  | _, _ => false

def sub : Double → Double → Double
  | .finite left, .finite right => ofRat (left - right)
  | .infinity left, .finite _ => .infinity left
  | .finite _, .infinity right => .infinity !right
  | .infinity left, .infinity right => if left = right then .nan else .infinity left
  | _, _ => .nan

def min (left right : Double) : Double :=
  if left = .nan ∨ right = .nan then .nan else if left.le right then left else right

def max (left right : Double) : Double :=
  if left = .nan ∨ right = .nan then .nan else if left.le right then right else left

def add : Double → Double → Double
  | .finite left, .finite right => ofRat (left + right)
  | .infinity left, .finite _ => .infinity left
  | .finite _, .infinity right => .infinity right
  | .infinity left, .infinity right => if left = right then .infinity left else .nan
  | _, _ => .nan

/-- `left === right`. -/
def strictEq (left right : Double) : Bool :=
  decide (left = right) && decide (left ≠ .nan)

/-- An integer between -(2^53 - 1) and 2^53 - 1. -/
def isSafeInteger : Double → Bool
  | .finite value => decide (value.den = 1 ∧ |value| ≤ 0x1fffffffffffff)
  | _ => false

/-- A number is less than another one exactly when both are numbers and the other one is
not at most it. -/
theorem lt_iff_not_le {left right : Double} :
    left.lt right = true ↔ right.le left = false ∧ left ≠ .nan ∧ right ≠ .nan := by
  cases left with
  | nan => simp [lt]
  | infinity negative => cases right <;> cases negative <;> simp [lt, le]
  | finite value =>
      cases right with
      | nan => simp [lt]
      | infinity negative => cases negative <;> simp [lt, le]
      | finite other => simp [lt, le]

/-! ### Texts -/

/-- The fewest digits that are read back as a positive number, with the place of the
decimal point: `(digits, point)` stands for `0.digits * 10 ^ point`. -/
def shortest (value : ℚ) : ℕ → ℕ × ℤ
  | 0 => (0, 0)
  | more + 1 =>
      let size := 18 - (more + 1)
      let point := Int.log 10 value + 1
      let scaled := value * (10 : ℚ) ^ ((size : ℤ) - point)
      let below := ⌊scaled⌋.toNat
      let reads := fun digits : ℕ =>
        decide (ofRat (digits * (10 : ℚ) ^ (point - size)) = .finite value)
      let chosen :=
        if reads below ∧ (reads (below + 1) = false ∨ scaled - below ≤ 1 / 2) then below
        else below + 1
      if reads chosen ∨ more = 0 then
        if chosen = 10 ^ size then (1, point + 1) else (chosen, point)
      else shortest value more

/-- `Number.prototype.toString` of a positive number. -/
def positiveText (value : ℚ) : Text :=
  let (number, point) := shortest value 17
  let digits := Text.decimal number
  let size := digits.length
  if size ≤ point ∧ point ≤ 21 then
    digits ++ List.replicate (point.toNat - size) 0x30
  else if 0 < point ∧ point ≤ 21 then
    digits.take point.toNat ++ 0x2e :: digits.drop point.toNat
  else if -6 < point ∧ point ≤ 0 then
    0x30 :: 0x2e :: List.replicate (-point).toNat 0x30 ++ digits
  else
    let sign : UInt16 := if 0 ≤ point - 1 then 0x2b else 0x2d
    let exponent := Text.decimal (point - 1).natAbs
    match digits with
    | [digit] => digit :: 0x65 :: sign :: exponent
    | digit :: rest => digit :: 0x2e :: rest ++ 0x65 :: sign :: exponent
    | [] => []

def nanText : Text := literal "NaN"

def infinityText : Text := literal "Infinity"

/-- `Number.prototype.toString`. -/
def toText : Double → Text
  | .nan => nanText
  | .infinity negative => if negative then 0x2d :: infinityText else infinityText
  | .finite value =>
      if value = 0 then [0x30]
      else if value < 0 then 0x2d :: positiveText (-value)
      else positiveText value

/-- The characters of the texts of numbers: digits, `+`, `-`, `.` and letters. -/
def textUnits : Text :=
  Text.digitUnits ++ literal "+-.e" ++ nanText ++ infinityText

theorem positiveText_subset (value : ℚ) : positiveText value ⊆ textUnits := by
  unfold positiveText
  generalize shortest value 17 = chosen
  obtain ⟨number, point⟩ := chosen
  dsimp only
  have hUnits : Text.digitUnits ⊆ textUnits := by decide
  have hDigits := List.Subset.trans (Text.decimal_subset number) hUnits
  have hExponent :=
    List.Subset.trans (Text.decimal_subset (point - 1).natAbs) hUnits
  generalize Text.decimal number = digits at hDigits
  have hZero : (0x30 : UInt16) ∈ textUnits := by decide
  have hPoint : (0x2e : UInt16) ∈ textUnits := by decide
  have hLetter : (0x65 : UInt16) ∈ textUnits := by decide
  have hSign : (if 0 ≤ point - 1 then (0x2b : UInt16) else 0x2d) ∈ textUnits := by
    split <;> decide
  generalize (if 0 ≤ point - 1 then (0x2b : UInt16) else 0x2d) = sign at hSign ⊢
  split_ifs
  · exact List.append_subset.mpr ⟨hDigits, Text.replicate_subset hZero⟩
  · refine List.append_subset.mpr ⟨fun unit h => hDigits (List.mem_of_mem_take h), ?_⟩
    exact List.cons_subset.mpr ⟨hPoint, fun unit h => hDigits (List.mem_of_mem_drop h)⟩
  · refine List.append_subset.mpr ⟨?_, hDigits⟩
    exact List.cons_subset.mpr
      ⟨hZero, List.cons_subset.mpr ⟨hPoint, Text.replicate_subset hZero⟩⟩
  · match digits with
    | [] => exact List.nil_subset _
    | [digit] => simp_all
    | digit :: next :: rest => simp_all

theorem toText_subset (number : Double) : number.toText ⊆ textUnits := by
  have hMinus : (0x2d : UInt16) ∈ textUnits := by decide
  cases number with
  | nan => decide
  | infinity negative => cases negative <;> decide
  | finite value =>
      rw [toText]
      split
      · decide
      split
      · exact List.cons_subset.mpr ⟨hMinus, positiveText_subset _⟩
      · exact positiveText_subset _

end Double
end Foundation
end RootPermit
