import Mathlib.Data.List.Basic
import Mathlib.Data.List.Nodup
import Mathlib.Data.List.Sort

/-!
# Tables as lists of rows

A table is the list of its rows in the order of their insertion.  This module has
the ways in which a program reads and changes one by the value of a column:

* `lookup` — the row with a given key;
* `select` — the rows with a given value, in table order;
* `update` — a change of the rows that satisfy a condition;
* `put` — storing a row under a key.

A column whose values are pairwise distinct is a key.  For a key, looking up and
being a row are the same (`lookup_eq_some_iff`), and a conditional update of one
key changes one row exactly when that row satisfies the condition
(`count_at_eq_one_iff`).  Ordering the rows by a column is an insertion sort.
-/

namespace RootPermit
namespace Foundation
namespace Table

variable {ρ κ : Type} [DecidableEq κ]

/-- The first row with this value in the column. -/
def lookup (column : ρ → κ) (value : κ) (rows : List ρ) : Option ρ :=
  rows.find? fun row => decide (column row = value)

/-- The rows with this value in the column. -/
def select (column : ρ → κ) (value : κ) (rows : List ρ) : List ρ :=
  rows.filter fun row => decide (column row = value)

/-- Changes the rows that satisfy the condition. -/
def update (condition : ρ → Bool) (change : ρ → ρ) (rows : List ρ) : List ρ :=
  rows.map fun row => if condition row then change row else row

/-- Stores a row under its value in a column: in the place of the row with this value,
or at the end. -/
def put (column : ρ → κ) (row : ρ) (rows : List ρ) : List ρ :=
  if (lookup column (column row) rows).isSome then
    update (fun found => decide (column found = column row)) (fun _ => row) rows
  else rows ++ [row]

/-- The column is a key: no two rows have the same value in it. -/
def Keyed (column : ρ → κ) (rows : List ρ) : Prop :=
  (rows.map column).Nodup

instance (column : ρ → κ) (rows : List ρ) : Decidable (Keyed column rows) :=
  inferInstanceAs (Decidable (rows.map column).Nodup)

variable {column : ρ → κ} {value : κ} {rows : List ρ} {row : ρ}

/-! ### Looking up -/

theorem mem_of_lookup (h : lookup column value rows = some row) : row ∈ rows :=
  List.mem_of_find?_eq_some h

theorem column_of_lookup (h : lookup column value rows = some row) :
    column row = value := by
  have hRow := List.find?_some h
  exact of_decide_eq_true hRow

/-- For a key, the row found is the only row with its value. -/
theorem lookup_eq_some_iff (hKey : Keyed column rows) :
    lookup column value rows = some row ↔ row ∈ rows ∧ column row = value := by
  constructor
  · intro h
    exact ⟨mem_of_lookup h, column_of_lookup h⟩
  · intro h
    obtain ⟨hMem, rfl⟩ := h
    cases hFound : lookup column (column row) rows with
    | none =>
        have hAbsent := List.find?_eq_none.mp hFound row hMem
        simp at hAbsent
    | some found =>
        have hSame : found = row :=
          List.inj_on_of_nodup_map hKey (mem_of_lookup hFound) hMem
            (column_of_lookup hFound)
        rw [hSame]

theorem lookup_eq_none_iff :
    lookup column value rows = none ↔ value ∉ rows.map column := by
  rw [lookup, List.find?_eq_none, List.mem_map]
  simp

theorem lookup_append (added : ρ) :
    lookup column value (rows ++ [added]) =
      (lookup column value rows).or
        (if column added = value then some added else none) := by
  rw [lookup, lookup, List.find?_append]
  congr 1
  by_cases hValue : column added = value
  · simp [hValue]
  · simp [hValue]

omit [DecidableEq κ] in
theorem keyed_append_iff {added : ρ} :
    Keyed column (rows ++ [added]) ↔
      Keyed column rows ∧ ∀ row ∈ rows, column row ≠ column added := by
  rw [Keyed, List.map_append, List.map_singleton, List.nodup_append]
  simp [Keyed]

/-! ### Selecting -/

theorem select_append (added : ρ) :
    select column value (rows ++ [added]) =
      select column value rows ++ if column added = value then [added] else [] := by
  rw [select, select, List.filter_append]
  congr 1
  by_cases hValue : column added = value
  · simp [hValue]
  · simp [hValue]

theorem mem_select_iff :
    row ∈ select column value rows ↔ row ∈ rows ∧ column row = value := by
  simp [select]

/-- A key selects at most one row. -/
theorem select_eq_of_mem (hKey : Keyed column rows)
    (h : row ∈ select column value rows) : select column value rows = [row] := by
  have hDistinct : (select column value rows).Nodup :=
    (List.Nodup.of_map column hKey).filter _
  have hOnly : ∀ other ∈ select column value rows, other = row := by
    intro other hOther
    rw [mem_select_iff] at h hOther
    exact List.inj_on_of_nodup_map hKey hOther.1 h.1 (hOther.2.trans h.2.symm)
  exact List.perm_singleton.mp
    ((List.perm_ext_iff_of_nodup hDistinct (List.nodup_singleton row)).mpr
      fun other => ⟨fun hOther => List.mem_singleton.mpr (hOnly other hOther),
        fun hOther => by
          rw [List.mem_singleton.mp hOther]
          exact h⟩)

theorem head?_select : (select column value rows).head? =
    lookup column value rows := by
  rw [select, lookup, List.head?_filter]

/-! ### Updating -/

/-- An update that keeps a column can be read after the lookup. -/
theorem lookup_update {condition : ρ → Bool} {change : ρ → ρ}
    (hColumn : ∀ row, column (change row) = column row) :
    lookup column value (update condition change rows) =
      (lookup column value rows).map
        fun row => if condition row then change row else row := by
  rw [lookup, update, List.find?_map, lookup]
  congr 2
  funext row
  by_cases hRow : condition row
  · simp [hRow, hColumn]
  · simp [hRow]

theorem map_update {β : Type} {condition : ρ → Bool} {change : ρ → ρ}
    {read : ρ → β} (hRead : ∀ row, read (change row) = read row) :
    (update condition change rows).map read = rows.map read := by
  rw [update, List.map_map]
  apply List.map_congr_left
  intro row _
  by_cases hRow : condition row
  · simp [hRow, hRead]
  · simp [hRow]

/-- Rows that pass a filter after an update of theirs passed it before: the update only
takes values out of a column that it keeps. -/
theorem map_filter_update_sublist {β : Type} {condition : ρ → Bool}
    {change : ρ → ρ} {read : ρ → β} {passes : ρ → Bool}
    (hRead : ∀ row, read (change row) = read row)
    (hPasses : ∀ row ∈ rows, condition row = true → passes (change row) = true →
      passes row = true) :
    (((update condition change rows).filter passes).map read).Sublist
      ((rows.filter passes).map read) := by
  induction rows with
  | nil => exact List.Sublist.slnil
  | cons row rest ih =>
      obtain ⟨hRow, hRest⟩ := List.forall_mem_cons.mp hPasses
      have hTail := ih hRest
      rw [update, List.map_cons, List.filter_cons, List.filter_cons]
      change ((List.filter passes (update condition change rest)).map read).Sublist _ at hTail
      by_cases hCondition : condition row
      · by_cases hChanged : passes (change row)
        · rw [if_pos hCondition, if_pos hChanged, if_pos (hRow hCondition hChanged),
            List.map_cons, List.map_cons, hRead]
          exact hTail.cons_cons _
        · rw [if_pos hCondition, if_neg hChanged]
          by_cases hBefore : passes row
          · rw [if_pos hBefore, List.map_cons]
            exact hTail.cons _
          · rw [if_neg hBefore]
            exact hTail
      · rw [if_neg hCondition]
        by_cases hBefore : passes row
        · rw [if_pos hBefore, if_pos hBefore, List.map_cons, List.map_cons]
          exact hTail.cons_cons _
        · rw [if_neg hBefore, if_neg hBefore]
          exact hTail

/-- The condition of an update of one key, guarded by `guard`. -/
def at? (column : ρ → κ) (value : κ) (guard : ρ → Bool) (row : ρ) : Bool :=
  decide (column row = value) && guard row

/-- A guarded update of one key changes one row exactly when the row with that
key passes the guard. -/
theorem count_at_eq_one_iff (hKey : Keyed column rows) {guard : ρ → Bool} :
    rows.countP (at? column value guard) = 1 ↔
      ∃ row, lookup column value rows = some row ∧ guard row = true := by
  have hFilter : rows.filter (at? column value guard) =
      (select column value rows).filter guard := by
    rw [select, List.filter_filter]
    congr 1
    funext row
    exact Bool.and_comm _ _
  rw [List.countP_eq_length_filter, hFilter]
  cases hSelect : select column value rows with
  | nil =>
      have hNone : lookup column value rows = none := by
        rw [← head?_select, hSelect]
        rfl
      simp [hNone]
  | cons row rest =>
      have hMem : row ∈ select column value rows := by
        rw [hSelect]
        exact List.mem_cons_self
      have hOnly := select_eq_of_mem hKey hMem
      have hFound : lookup column value rows = some row := by
        rw [← head?_select, hSelect]
        rfl
      rw [← hSelect, hOnly, hFound]
      by_cases hGuard : guard row
      · simp [hGuard]
      · simp [hGuard]

/-- When the row of a key passes the guard, the guard may be dropped. -/
theorem update_at_of_guard (hKey : Keyed column rows) {guard : ρ → Bool}
    {change : ρ → ρ} (hRow : lookup column value rows = some row)
    (hGuard : guard row = true) :
    update (at? column value guard) change rows =
      update (at? column value fun _ => true) change rows := by
  apply List.map_congr_left
  intro other hOther
  by_cases hValue : column other = value
  · have hSame : lookup column value rows = some other :=
      (lookup_eq_some_iff hKey).mpr ⟨hOther, hValue⟩
    rw [hRow, Option.some.injEq] at hSame
    rw [← hSame]
    simp [at?, hGuard]
  · simp [at?, hValue]

/-! ### Storing -/

/-- A row that is stored replaces another one or joins them. -/
theorem mem_of_mem_put {found : ρ} (h : found ∈ put column row rows) :
    found ∈ rows ∨ found = row := by
  unfold put at h
  split at h
  · obtain ⟨old, hOld, rfl⟩ := List.mem_map.mp h
    dsimp only
    split
    · exact .inr rfl
    · exact .inl hOld
  · rw [List.mem_append, List.mem_singleton] at h
    exact h

/-- A row with a new key is appended. -/
theorem put_of_absent (h : lookup column (column row) rows = none) :
    put column row rows = rows ++ [row] := by
  rw [put, h]
  rfl

/-- A row is changed in its place when its key is there, and appended when not. -/
theorem lookup_upsert {change : ρ → ρ}
    (hChange : ∀ found, column found = column row →
      column (change found) = column row) :
    lookup column value
        (if (lookup column (column row) rows).isSome then
          update (fun found => decide (column found = column row)) change rows
        else rows ++ [row]) =
      if column row = value then
        some ((lookup column (column row) rows).elim row change)
      else lookup column value rows := by
  cases hFound : lookup column (column row) rows with
  | none =>
      rw [Option.isSome_none, if_neg Bool.false_ne_true, lookup_append]
      by_cases hValue : column row = value
      · subst hValue
        rw [hFound, if_pos rfl, if_pos rfl]
        rfl
      · rw [if_neg hValue, if_neg hValue, Option.or_none]
  | some found =>
      have hKeys : ∀ other, column (if decide (column other = column row) then
          change other else other) = column other := by
        intro other
        by_cases hSame : column other = column row
        · simp [hSame, hChange]
        · simp [hSame]
      have hUpdated : lookup column value
          (update (fun found => decide (column found = column row)) change rows) =
          (lookup column value rows).map fun other =>
            if decide (column other = column row) then change other else other := by
        rw [update, lookup, lookup, List.find?_map]
        simp only [Function.comp_def, hKeys]
      rw [Option.isSome_some, if_pos rfl, hUpdated]
      by_cases hValue : column row = value
      · have hColumn := column_of_lookup hFound
        rw [← hValue, hFound, if_pos rfl, Option.map_some, if_pos (decide_eq_true hColumn)]
        rfl
      · rw [if_neg hValue]
        cases hOther : lookup column value rows with
        | none => rfl
        | some other =>
            have hColumn : column other ≠ column row :=
              column_of_lookup hOther ▸ Ne.symm hValue
            rw [Option.map_some, if_neg (by simpa using hColumn)]

/-- What is stored is found under its key, and nothing else changes. -/
theorem lookup_put : lookup column value (put column row rows) =
    if column row = value then some row else lookup column value rows := by
  rw [put, lookup_upsert fun _ _ => rfl]
  cases lookup column (column row) rows <;> rfl

/-! ### The rows of other values -/

/-- Leaving out the rows of one value leaves those of another. -/
theorem select_filter_ne {other : κ} (h : value ≠ other) :
    select column other (rows.filter fun row => decide (column row ≠ value)) =
      select column other rows := by
  rw [select, List.filter_filter]
  apply List.filter_congr
  intro row _
  by_cases hRow : column row = other
  · have hKept : column row ≠ value := fun hSame => h (hSame.symm.trans hRow)
    simp [hRow, hRow ▸ hKept]
  · simp [hRow]

/-- A change at one value leaves the rows of the others. -/
theorem filter_update_ne {change : ρ → ρ}
    (hChange : ∀ found, column (change found) = column found) :
    (update (fun found => decide (column found = value)) change rows).filter
        (fun row => decide (column row ≠ value)) =
      rows.filter fun row => decide (column row ≠ value) := by
  induction rows with
  | nil => rfl
  | cons first rest ih =>
      unfold update at ih ⊢
      rw [List.map_cons, List.filter_cons, List.filter_cons, ih]
      by_cases hFirst : column first = value
      · simp [hFirst, hChange]
      · simp [hFirst]

/-! ### Ordering -/

theorem orderedInsert_of_forall_not {before : ρ → ρ → Prop} [DecidableRel before]
    (h : ∀ other ∈ rows, ¬ before row other) :
    rows.orderedInsert before row = rows ++ [row] := by
  induction rows with
  | nil => rfl
  | cons first rest ih =>
      have hRest := ih fun other hOther => h other (List.mem_cons_of_mem _ hOther)
      rw [List.orderedInsert_cons, if_neg (h first List.mem_cons_self), hRest,
        List.cons_append]

/-- Rows that stand in the opposite order are reversed. -/
theorem insertionSort_of_opposite {before : ρ → ρ → Prop} [DecidableRel before]
    (h : rows.Pairwise fun first second => ¬ before first second) :
    rows.insertionSort before = rows.reverse := by
  induction rows with
  | nil => rfl
  | cons first rest ih =>
      obtain ⟨hFirst, hRest⟩ := List.pairwise_cons.mp h
      rw [List.insertionSort_cons, ih hRest, List.reverse_cons]
      apply orderedInsert_of_forall_not
      intro other hOther
      exact hFirst other (List.mem_reverse.mp hOther)

end Table
end Foundation
end RootPermit
