import Mathlib.Algebra.Group.Int.Defs
import Mathlib.Algebra.Group.Nat.Defs
import Mathlib.Data.Int.Basic

/-!
# Checked conversions between machine integers

A checked conversion fails when the mathematical value does not fit and is
the identity on values otherwise.  Each conversion is therefore determined by
one equivalence over the integers.
-/

namespace RootPermit
namespace Foundation

/-- The `i64` of this value, if there is one. -/
def toI64? (n : Int) : Option Int64 :=
  if -0x8000000000000000 ≤ n ∧ n ≤ 0x7fffffffffffffff then some (Int64.ofInt n)
  else none

/-- The `u64` of this value, if there is one. -/
def toU64? (n : Int) : Option UInt64 :=
  if 0 ≤ n ∧ n ≤ 0xffffffffffffffff then some (UInt64.ofNat n.toNat) else none

/-- The `u32` of this value, if there is one. -/
def toU32? (n : Int) : Option UInt32 :=
  if 0 ≤ n ∧ n ≤ 0xffffffff then some (UInt32.ofNat n.toNat) else none

@[simp] theorem toI64?_eq_some_iff {n : Int} {m : Int64} :
    toI64? n = some m ↔ m.toInt = n := by
  unfold toI64?
  split
  · rename_i hRange
    rw [Option.some.injEq]
    constructor
    · rintro rfl
      exact Int64.toInt_ofInt_of_le hRange.1 (by omega)
    · rintro rfl
      exact Int64.ofInt_toInt m
  · rename_i hRange
    have hLow : -2 ^ 63 ≤ m.toInt := m.le_toInt
    have hHigh : m.toInt < 2 ^ 63 := m.toInt_lt
    simp only [reduceCtorEq, false_iff]
    rintro rfl
    exact hRange ⟨hLow, by omega⟩

@[simp] theorem toU64?_eq_some_iff {n : Int} {m : UInt64} :
    toU64? n = some m ↔ (m.toNat : Int) = n := by
  unfold toU64?
  split
  · rename_i hRange
    have hNat : n.toNat < 2 ^ 64 := by omega
    rw [Option.some.injEq]
    constructor
    · rintro rfl
      rw [UInt64.toNat_ofNat_of_lt' hNat, Int.toNat_of_nonneg hRange.1]
    · rintro rfl
      simp
  · rename_i hRange
    have hHigh : m.toNat < 2 ^ 64 := m.toNat_lt
    simp only [reduceCtorEq, false_iff]
    rintro rfl
    exact hRange ⟨by omega, by omega⟩

@[simp] theorem toU32?_eq_some_iff {n : Int} {m : UInt32} :
    toU32? n = some m ↔ (m.toNat : Int) = n := by
  unfold toU32?
  split
  · rename_i hRange
    have hNat : n.toNat < 2 ^ 32 := by omega
    rw [Option.some.injEq]
    constructor
    · rintro rfl
      rw [UInt32.toNat_ofNat_of_lt' hNat, Int.toNat_of_nonneg hRange.1]
    · rintro rfl
      simp
  · rename_i hRange
    have hHigh : m.toNat < 2 ^ 32 := m.toNat_lt
    simp only [reduceCtorEq, false_iff]
    rintro rfl
    exact hRange ⟨by omega, by omega⟩

theorem exists_toI64? {n : Int} (hLow : -2 ^ 63 ≤ n) (hHigh : n < 2 ^ 63) :
    ∃ m, toI64? n = some m := by
  unfold toI64?
  rw [if_pos (by omega)]
  exact ⟨_, rfl⟩

theorem exists_toU64? {n : Int} (hLow : 0 ≤ n) (hHigh : n < 2 ^ 64) :
    ∃ m, toU64? n = some m := by
  unfold toU64?
  rw [if_pos (by omega)]
  exact ⟨_, rfl⟩

/-- `checked_add(1)` of a `u64`. -/
def checkedSucc (n : UInt64) : Option UInt64 :=
  toU64? (n.toNat + 1)

/-- `saturating_add(1)` of a `u64`. -/
def saturatingSucc (n : UInt64) : UInt64 :=
  (checkedSucc n).getD n

theorem toNat_of_checkedSucc {n m : UInt64} (h : checkedSucc n = some m) :
    m.toNat = n.toNat + 1 := by
  have hValue := toU64?_eq_some_iff.mp h
  omega

/-- Below the maximum, saturation does not show. -/
theorem toNat_saturatingSucc {n : UInt64} (h : n.toNat + 1 < 2 ^ 64) :
    (saturatingSucc n).toNat = n.toNat + 1 := by
  have hNext : checkedSucc n = some (UInt64.ofNat (n.toNat + 1)) := by
    rw [checkedSucc, toU64?_eq_some_iff, UInt64.toNat_ofNat_of_lt' h]
    omega
  rw [saturatingSucc, hNext, Option.getD_some, UInt64.toNat_ofNat_of_lt' h]

/-- At the maximum it stays. -/
theorem toNat_saturatingSucc_of_max {n : UInt64} (h : n.toNat = 2 ^ 64 - 1) :
    (saturatingSucc n).toNat = n.toNat := by
  have hNone : checkedSucc n = none := by
    unfold checkedSucc toU64?
    rw [if_neg]
    omega
  rw [saturatingSucc, hNone, Option.getD_none]

theorem le_toNat_saturatingSucc (n : UInt64) : n.toNat ≤ (saturatingSucc n).toNat := by
  unfold saturatingSucc
  cases hNext : checkedSucc n with
  | none => exact Nat.le_refl _
  | some next =>
      rw [Option.getD_some, toNat_of_checkedSucc hNext]
      exact Nat.le_succ _

end Foundation
end RootPermit
