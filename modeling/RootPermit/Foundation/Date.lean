import RootPermit.Foundation.Double

/-!
# Dates as texts

The text of a point in time, in milliseconds since 1970 UTC, in the proleptic Gregorian
calendar.
-/

namespace RootPermit
namespace Foundation
namespace Date

def MS_PER_DAY : ℤ := 86400000

/-- A date of the calendar. -/
structure Civil where
  year : ℤ
  month : ℤ
  day : ℤ
  deriving DecidableEq, Repr

/-- The date of a day, counted from 1970.  Years are taken to begin in March, so that
the leap day is the last of its year, and 400 of them have 146097 days. -/
def civilOfDays (days : ℤ) : Civil :=
  let shifted := days + 719468
  let era := shifted / 146097
  let dayOfEra := shifted % 146097
  let yearOfEra :=
    (dayOfEra - dayOfEra / 1460 + dayOfEra / 36524 - dayOfEra / 146096) / 365
  let dayOfYear := dayOfEra - (365 * yearOfEra + yearOfEra / 4 - yearOfEra / 100)
  let shiftedMonth := (5 * dayOfYear + 2) / 153
  let month := if shiftedMonth < 10 then shiftedMonth + 3 else shiftedMonth - 9
  { year := yearOfEra + era * 400 + if month ≤ 2 then 1 else 0
    month
    day := dayOfYear - (153 * shiftedMonth + 2) / 5 + 1 }

/-- A number in `width` digits. -/
def field (width : ℕ) (number : ℤ) : Text :=
  Text.padStart width 0x30 (Text.decimal number.toNat)

/-- Four digits, or a sign and six digits. -/
def yearText (year : ℤ) : Text :=
  if 0 ≤ year ∧ year ≤ 9999 then field 4 year
  else (if year < 0 then 0x2d else 0x2b) :: field 6 year.natAbs

def timeText (time : ℤ) : Text :=
  let date := civilOfDays (time / MS_PER_DAY)
  let inDay := time % MS_PER_DAY
  yearText date.year ++ literal "-" ++ field 2 date.month ++ literal "-" ++
    field 2 date.day ++ literal "T" ++ field 2 (inDay / 3600000) ++ literal ":" ++
    field 2 (inDay / 60000 % 60) ++ literal ":" ++ field 2 (inDay / 1000 % 60) ++
    literal "." ++ field 3 (inDay % 1000) ++ literal "Z"

/-- `new Date(time).toISOString()`; nothing is returned outside of the range of dates,
where the call throws. -/
def toISOString : Double → Option Text
  | .finite value =>
      if |value| ≤ 8640000000000000 then
        some (timeText (if 0 ≤ value then ⌊value⌋ else ⌈value⌉))
      else none
  | _ => none

/-- The characters of the texts of dates. -/
def textUnits : Text :=
  Text.digitUnits ++ literal "-+:.TZ"

theorem field_subset (width : ℕ) (number : ℤ) : field width number ⊆ textUnits := by
  have hDigits : Text.digitUnits ⊆ textUnits := by decide
  exact Text.padStart_subset (by decide)
    (List.Subset.trans (Text.decimal_subset _) hDigits)

theorem yearText_subset (year : ℤ) : yearText year ⊆ textUnits := by
  unfold yearText
  split_ifs
  · exact field_subset 4 year
  · exact List.cons_subset.mpr ⟨by decide, field_subset 6 _⟩
  · exact List.cons_subset.mpr ⟨by decide, field_subset 6 _⟩

theorem toISOString_subset {time : Double} {text : Text}
    (h : toISOString time = some text) : text ⊆ textUnits := by
  have hSeparators : literal "-" ⊆ textUnits ∧ literal "T" ⊆ textUnits ∧
      literal ":" ⊆ textUnits ∧ literal "." ⊆ textUnits ∧ literal "Z" ⊆ textUnits := by
    decide
  obtain ⟨hDash, hTime, hColon, hPoint, hZone⟩ := hSeparators
  cases time with
  | nan => cases h
  | infinity negative => cases h
  | finite value =>
      rw [toISOString] at h
      split at h
      · rw [Option.some.injEq] at h
        rw [← h, timeText]
        simp only [List.append_subset, yearText_subset, field_subset, hDash, hTime, hColon,
          hPoint, hZone, and_self]
      · cases h

example : toISOString (.finite 1800000300000) =
    some (literal "2027-01-15T08:05:00.000Z") := by decide +kernel

end Date
end Foundation
end RootPermit
