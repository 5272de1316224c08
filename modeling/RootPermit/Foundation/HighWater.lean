import Mathlib.Data.List.Basic
import Mathlib.Data.List.Induction
import Mathlib.Order.MinMax

/-!
# High-water marks

Entries that carry a key and a number.  The mark of a key is the highest number of its
entries, and zero where there are none: a register that is raised with every entry holds
it (`highWater_concat`), and a number is reached exactly when some entry of the key
reaches it (`le_highWater_iff`).
-/

namespace RootPermit
namespace Foundation

variable {α κ : Type} [DecidableEq κ] (key : α → κ) (value : α → Nat)

/-- The highest number of the entries under a key. -/
def highWater (entries : List α) (sought : κ) : Nat :=
  entries.foldl (fun mark entry =>
    if key entry = sought then max mark (value entry) else mark) 0

@[simp] theorem highWater_nil (sought : κ) : highWater key value [] sought = 0 := rfl

theorem highWater_concat (entries : List α) (entry : α) (sought : κ) :
    highWater key value (entries ++ [entry]) sought =
      if key entry = sought then max (highWater key value entries sought) (value entry)
      else highWater key value entries sought := by
  rw [highWater, List.foldl_concat]
  rfl

/-- A number above zero is reached by the mark exactly when an entry reaches it. -/
theorem le_highWater_iff {entries : List α} {sought : κ} {number : Nat}
    (h : 0 < number) :
    number ≤ highWater key value entries sought ↔
      ∃ entry ∈ entries, key entry = sought ∧ number ≤ value entry := by
  induction entries using List.reverseRecOn with
  | nil =>
      simp only [highWater_nil, List.not_mem_nil, false_and, exists_false, iff_false]
      omega
  | append_singleton entries entry ih =>
      have hSplit : (∃ found ∈ entries ++ [entry], key found = sought ∧
            number ≤ value found) ↔
          (∃ found ∈ entries, key found = sought ∧ number ≤ value found) ∨
            (key entry = sought ∧ number ≤ value entry) := by
        simp only [List.mem_append, List.mem_singleton, or_and_right, exists_or,
          exists_eq_left]
      rw [highWater_concat, hSplit, ← ih]
      by_cases hKey : key entry = sought
      · rw [if_pos hKey, le_max_iff, and_iff_right hKey]
      · rw [if_neg hKey, or_iff_left fun hEntry => hKey hEntry.1]

end Foundation
end RootPermit
