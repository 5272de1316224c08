import Mathlib.Data.List.Sort
import RootPermit.Foundation.Bytes

/-!
# The length-then-lexicographic order on byte strings

`shortlex` compares two byte strings by length and, at equal length, byte by
byte.  It is a total comparison whose only ties are equal strings, so sorting
the entries of a table by the `shortlex` order of their keys has exactly one
outcome whenever the keys are distinct.
-/

namespace RootPermit
namespace Foundation

/-- Compare by length first and then byte by byte. -/
def shortlex (left right : Bytes) : Ordering :=
  (compare left.length right.length).then (compare left right)

theorem shortlex_eq_compareLex :
    shortlex = compareLex (compareOn List.length) compare := rfl

instance : Std.TransCmp shortlex := by
  rw [shortlex_eq_compareLex]
  infer_instance

instance : Std.LawfulEqCmp shortlex where
  eq_of_compare := by
    intro left right h
    rw [shortlex, Ordering.then_eq_eq] at h
    exact Std.LawfulEqCmp.eq_of_compare h.2

theorem shortlex_self (bytes : Bytes) : shortlex bytes bytes = .eq :=
  Std.ReflCmp.compare_self

theorem shortlex_swap (left right : Bytes) :
    shortlex right left = (shortlex left right).swap :=
  Std.OrientedCmp.eq_swap

/-- The strict order behind `shortlex`, stated without a comparison. -/
def ShortlexLt (left right : Bytes) : Prop :=
  left.length < right.length ∨ (left.length = right.length ∧ left < right)

theorem compare_bytes_eq_lt_iff {left right : Bytes} :
    compare left right = .lt ↔ left < right := by
  induction left generalizing right with
  | nil =>
      cases right with
      | nil => simp [Std.ReflCmp.compare_self]
      | cons byte rest => simp [List.compare_nil_cons]
  | cons byte rest ih =>
      cases right with
      | nil => simp [List.compare_cons_nil]
      | cons byte' rest' =>
          rw [List.compare_cons_cons, Ordering.then_eq_lt, ih,
            List.cons_lt_cons_iff, Std.compare_eq_lt,
            Std.LawfulEqCmp.compare_eq_iff_eq]

theorem shortlex_eq_lt_iff {left right : Bytes} :
    shortlex left right = .lt ↔ ShortlexLt left right := by
  rw [shortlex, Ordering.then_eq_lt, compare_bytes_eq_lt_iff, Nat.compare_eq_lt,
    Nat.compare_eq_eq, ShortlexLt]

theorem ShortlexLt.trans {first second third : Bytes}
    (h : ShortlexLt first second) (h' : ShortlexLt second third) :
    ShortlexLt first third := by
  rw [← shortlex_eq_lt_iff] at h h' ⊢
  exact Std.TransCmp.lt_trans h h'

theorem ShortlexLt.ne {left right : Bytes} (h : ShortlexLt left right) :
    left ≠ right := by
  rintro rfl
  rw [← shortlex_eq_lt_iff, shortlex_self] at h
  cases h

/-! ### Sorting by an encoded key -/

section SortByKey

variable {α β : Type}

/-- The order in which entries are written: no later key precedes. -/
def KeyLe (key : α → Bytes) (first second : α) : Prop :=
  shortlex (key first) (key second) ≠ .gt

instance (key : α → Bytes) : DecidableRel (KeyLe key) :=
  fun first second =>
    inferInstanceAs (Decidable (shortlex (key first) (key second) ≠ .gt))

/-- Entries strictly increase by key. -/
def KeysIncrease (key : α → Bytes) (entries : List α) : Prop :=
  entries.Pairwise fun first second => ShortlexLt (key first) (key second)

/-- Stable sort of the entries by the `shortlex` order of their keys. -/
def sortByKey (key : α → Bytes) (entries : List α) : List α :=
  entries.insertionSort (KeyLe key)

theorem sortByKey_perm (key : α → Bytes) (entries : List α) :
    (sortByKey key entries).Perm entries :=
  List.perm_insertionSort _ entries

@[simp] theorem length_sortByKey (key : α → Bytes) (entries : List α) :
    (sortByKey key entries).length = entries.length :=
  (sortByKey_perm key entries).length_eq

@[simp] theorem mem_sortByKey {key : α → Bytes} {entries : List α} {entry : α} :
    entry ∈ sortByKey key entries ↔ entry ∈ entries :=
  (sortByKey_perm key entries).mem_iff

theorem keyLe_total (key : α → Bytes) (first second : α) :
    KeyLe key first second ∨ KeyLe key second first := by
  unfold KeyLe
  rw [shortlex_swap (key first) (key second)]
  cases shortlex (key first) (key second) with
  | lt => simp
  | eq => simp
  | gt => simp

theorem keyLe_trans (key : α → Bytes) {first second third : α}
    (h : KeyLe key first second) (h' : KeyLe key second third) :
    KeyLe key first third := by
  have hFirst := Ordering.ne_gt_iff_isLE.mp h
  have hSecond := Ordering.ne_gt_iff_isLE.mp h'
  exact Ordering.ne_gt_iff_isLE.mpr (Std.TransCmp.isLE_trans hFirst hSecond)

theorem pairwise_sortByKey (key : α → Bytes) (entries : List α) :
    (sortByKey key entries).Pairwise (KeyLe key) := by
  have : Std.Total (KeyLe key) := ⟨keyLe_total key⟩
  have : IsTrans α (KeyLe key) := ⟨fun _ _ _ => keyLe_trans key⟩
  exact List.pairwise_insertionSort (KeyLe key) entries

theorem shortlexLt_of_keyLe {key : α → Bytes} {first second : α}
    (h : KeyLe key first second) (hNe : key first ≠ key second) :
    ShortlexLt (key first) (key second) := by
  rw [← shortlex_eq_lt_iff]
  cases hCompare : shortlex (key first) (key second) with
  | lt => rfl
  | eq => exact absurd (Std.LawfulEqCmp.eq_of_compare hCompare) hNe
  | gt => exact absurd hCompare h

/-- Distinct keys come out of the sort strictly increasing. -/
theorem keysIncrease_sortByKey {key : α → Bytes} {entries : List α}
    (hDistinct : (entries.map key).Nodup) :
    KeysIncrease key (sortByKey key entries) := by
  have hNodup : ((sortByKey key entries).map key).Nodup :=
    ((sortByKey_perm key entries).map key).nodup_iff.mpr hDistinct
  have hNe : (sortByKey key entries).Pairwise
      fun first second => key first ≠ key second :=
    List.pairwise_map.mp hNodup
  refine (pairwise_sortByKey key entries).and hNe |>.imp ?_
  intro first second h
  exact shortlexLt_of_keyLe h.1 h.2

/-- An increasing list is already sorted. -/
theorem KeysIncrease.sortByKey_eq {key : α → Bytes} {entries : List α}
    (h : KeysIncrease key entries) : sortByKey key entries = entries := by
  apply List.Pairwise.insertionSort_eq
  apply h.imp
  intro first second hLt
  rw [← shortlex_eq_lt_iff] at hLt
  simp [KeyLe, hLt]

theorem KeysIncrease.nodup {key : α → Bytes} {entries : List α}
    (h : KeysIncrease key entries) : (entries.map key).Nodup :=
  List.pairwise_map.mpr (h.imp fun hLt => hLt.ne)

/-- Sorting depends only on the entries and not on their order, as long as
their keys are distinct. -/
theorem KeysIncrease.eq_of_perm {key : α → Bytes} {first second : List α}
    (hFirst : KeysIncrease key first) (hSecond : KeysIncrease key second)
    (hPerm : first.Perm second) : first = second := by
  refine hPerm.eq_of_pairwise ?_ hFirst hSecond
  intro a b _ _ hAB hBA
  exact absurd rfl (hAB.trans hBA).ne

theorem sortByKey_congr_perm {key : α → Bytes} {first second : List α}
    (hPerm : first.Perm second) (hDistinct : (first.map key).Nodup) :
    sortByKey key first = sortByKey key second := by
  refine (keysIncrease_sortByKey hDistinct).eq_of_perm
    (keysIncrease_sortByKey ?_) ?_
  · exact (hPerm.map key).nodup_iff.mp hDistinct
  · exact (sortByKey_perm key first).trans
      (hPerm.trans (sortByKey_perm key second).symm)

/-- Sorting commutes with a relabelling that preserves the keys. -/
theorem map_sortByKey {key : α → Bytes} {key' : β → Bytes} (relabel : α → β)
    {entries : List α}
    (hKey : ∀ entry ∈ entries, key' (relabel entry) = key entry) :
    (sortByKey key entries).map relabel =
      sortByKey key' (entries.map relabel) := by
  apply List.map_insertionSort
  intro first hFirst second hSecond
  simp only [KeyLe, hKey first hFirst, hKey second hSecond]

end SortByKey

end Foundation
end RootPermit
