import Mathlib.Data.List.Forall2
import Mathlib.Logic.Basic

/-!
# Outcomes of fallible computations

A computation that can fail is a value of `Except`.  Its failures matter to
the caller, but an invariant is always carried by its successes, so almost every
proof about one starts from an equation `computation = .ok result`.  The
lemmas below take such an equation apart, one sequencing step at a time, and an
equation `computation = .error fault` in the same way.
-/

namespace RootPermit
namespace Foundation

/-- A sequenced computation succeeds exactly when its first part succeeds and
the rest succeeds on that part's result. -/
theorem bind_eq_ok_iff {ε α β : Type} {first : Except ε α}
    {rest : α → Except ε β} {result : β} :
    (first >>= rest) = .ok result ↔
      ∃ value, first = .ok value ∧ rest value = .ok result := by
  cases first with
  | error fault => simp [bind, Except.bind]
  | ok value => simp [bind, Except.bind]

@[simp] theorem ok_bind {ε α β : Type} (value : α) (rest : α → Except ε β) :
    (Except.ok value >>= rest) = rest value := rfl

@[simp] theorem error_bind {ε α β : Type} (fault : ε) (rest : α → Except ε β) :
    (Except.error fault >>= rest) = .error fault := rfl

@[simp] theorem pure_eq_ok {ε α : Type} (value : α) :
    (pure value : Except ε α) = .ok value := rfl

/-- Renaming the failures of a computation keeps its successes. -/
@[simp] theorem mapError_eq_ok_iff {ε δ α : Type} {rename : ε → δ}
    {computation : Except ε α} {value : α} :
    computation.mapError rename = .ok value ↔ computation = .ok value := by
  cases computation with
  | error fault => simp [Except.mapError]
  | ok value => simp [Except.mapError]

/-- Applying a function to the result of a computation. -/
@[simp] theorem map_eq_ok_iff {ε α β : Type} {transform : α → β}
    {computation : Except ε α} {result : β} :
    computation.map transform = .ok result ↔
      ∃ value, computation = .ok value ∧ transform value = result := by
  cases computation with
  | error fault => simp [Except.map]
  | ok value => simp [Except.map]

/-- Reject with `fault` when `condition` holds. -/
def rejectIf {ε : Type} (condition : Prop) [Decidable condition] (fault : ε) :
    Except ε Unit :=
  if condition then .error fault else .ok ()

@[simp] theorem rejectIf_eq_ok_iff {ε : Type} {condition : Prop}
    [Decidable condition] {fault : ε} {value : Unit} :
    rejectIf condition fault = .ok value ↔ ¬ condition := by
  by_cases hCondition : condition
  · simp [rejectIf, hCondition]
  · simp [rejectIf, hCondition]

/-- The value of an optional result, or `fault` when it is absent. -/
def orFault {ε α : Type} (fault : ε) : Option α → Except ε α
  | some value => .ok value
  | none => .error fault

@[simp] theorem orFault_eq_ok_iff {ε α : Type} {fault : ε}
    {found : Option α} {value : α} :
    orFault fault found = .ok value ↔ found = some value := by
  cases found with
  | none => simp [orFault]
  | some value => simp [orFault]

/-- Every result of a list of computations comes from one of its values. -/
theorem mem_of_mapM_eq_ok {ε α β : Type} {transform : α → Except ε β} {values : List α}
    {results : List β} (h : values.mapM transform = .ok results) {result : β}
    (hResult : result ∈ results) :
    ∃ value ∈ values, transform value = .ok result := by
  induction values generalizing results with
  | nil =>
      rw [List.mapM_nil, pure_eq_ok, Except.ok.injEq] at h
      rw [← h] at hResult
      cases hResult
  | cons first rest ih =>
      simp only [List.mapM_cons, bind_eq_ok_iff, pure_eq_ok, Except.ok.injEq] at h
      obtain ⟨made, hMade, others, hOthers, rfl⟩ := h
      rcases List.mem_cons.mp hResult with rfl | hLater
      · exact ⟨first, List.mem_cons_self, hMade⟩
      · obtain ⟨value, hValue, hFrom⟩ := ih hOthers hLater
        exact ⟨value, List.mem_cons_of_mem _ hValue, hFrom⟩

/-- A list of optional results is there when every one of them is. -/
theorem mapM_eq_some_iff {α β : Type} {transform : α → Option β} {values : List α}
    {results : List β} :
    values.mapM transform = some results ↔
      List.Forall₂ (fun value result => transform value = some result) values
        results := by
  induction values generalizing results with
  | nil => simp [eq_comm]
  | cons first rest ih =>
      simp only [List.mapM_cons, Option.bind_eq_bind, Option.bind_eq_some_iff,
        Option.pure_def, Option.some.injEq, List.forall₂_cons_left_iff, ih]
      constructor
      · intro h
        obtain ⟨made, hMade, others, hOthers, rfl⟩ := h
        exact ⟨made, others, hMade, hOthers, rfl⟩
      · intro h
        obtain ⟨made, others, hMade, hOthers, rfl⟩ := h
        exact ⟨made, hMade, others, hOthers, rfl⟩

/-! ### Failures -/

/-- A sequenced computation fails in its first part, or after it. -/
theorem bind_eq_error_iff {ε α β : Type} {first : Except ε α}
    {rest : α → Except ε β} {fault : ε} :
    (first >>= rest) = .error fault ↔
      first = .error fault ∨ ∃ value, first = .ok value ∧ rest value = .error fault := by
  cases first with
  | error other => simp
  | ok value => simp

@[simp] theorem mapError_eq_error_iff {ε δ α : Type} {rename : ε → δ}
    {computation : Except ε α} {fault : δ} :
    computation.mapError rename = .error fault ↔
      ∃ cause, computation = .error cause ∧ rename cause = fault := by
  cases computation with
  | error other => simp [Except.mapError]
  | ok value => simp [Except.mapError]

@[simp] theorem map_eq_error_iff {ε α β : Type} {transform : α → β}
    {computation : Except ε α} {fault : ε} :
    computation.map transform = .error fault ↔ computation = .error fault := by
  cases computation with
  | error other => simp [Except.map]
  | ok value => simp [Except.map]

@[simp] theorem rejectIf_eq_error_iff {ε : Type} {condition : Prop}
    [Decidable condition] {fault other : ε} :
    rejectIf condition fault = .error other ↔ condition ∧ fault = other := by
  by_cases hCondition : condition
  · simp [rejectIf, hCondition]
  · simp [rejectIf, hCondition]

@[simp] theorem orFault_eq_error_iff {ε α : Type} {fault other : ε} {found : Option α} :
    orFault fault found = .error other ↔ found = none ∧ fault = other := by
  cases found with
  | none => simp [orFault]
  | some value => simp [orFault]

/-- A list of computations succeeds when each of them does. -/
theorem exists_mapM_eq_ok {ε α β : Type} {transform : α → Except ε β} {values : List α}
    (h : ∀ value ∈ values, ∃ result, transform value = .ok result) :
    ∃ results, values.mapM transform = .ok results := by
  induction values with
  | nil => exact ⟨[], rfl⟩
  | cons first rest ih =>
      obtain ⟨hFirst, hRest⟩ := List.forall_mem_cons.mp h
      obtain ⟨result, hResult⟩ := hFirst
      obtain ⟨results, hResults⟩ := ih hRest
      exact ⟨result :: results, by rw [List.mapM_cons, hResult, ok_bind, hResults]; rfl⟩

/-- A list of computations fails where one of its values does. -/
theorem exists_of_mapM_eq_error {ε α β : Type} {transform : α → Except ε β}
    {values : List α} {fault : ε} (h : values.mapM transform = .error fault) :
    ∃ value ∈ values, transform value = .error fault := by
  induction values with
  | nil => cases h
  | cons first rest ih =>
      simp only [List.mapM_cons, bind_eq_error_iff, pure_eq_ok, reduceCtorEq, and_false,
        exists_false, or_false] at h
      rcases h with hFirst | ⟨_, -, hRest⟩
      · exact ⟨first, List.mem_cons_self, hFirst⟩
      · obtain ⟨value, hValue, hFault⟩ := ih hRest
        exact ⟨value, List.mem_cons_of_mem _ hValue, hFault⟩

/-! ### Computations with a state -/

section Stateful

variable {σ ε α β : Type}

/-- Sequencing passes the state on. -/
theorem run_bind_eq_ok_iff {first : StateT σ (Except ε) α}
    {rest : α → StateT σ (Except ε) β} {before after : σ} {result : β} :
    (first >>= rest) before = .ok (result, after) ↔
      ∃ value between, first before = .ok (value, between) ∧
        rest value between = .ok (result, after) := by
  change (first before >>= fun step => rest step.1 step.2) = _ ↔ _
  rw [bind_eq_ok_iff, Prod.exists]

/-- What follows a successful first part runs on its result and its state. -/
theorem run_bind_of_ok {first : StateT σ (Except ε) α}
    {rest : α → StateT σ (Except ε) β} {before between : σ} {value : α}
    (h : first before = .ok (value, between)) :
    (first >>= rest) before = rest value between := by
  change (first before >>= fun step => rest step.1 step.2) = _
  rw [h]
  rfl

theorem run_pure_eq_ok_iff {value result : α} {before after : σ} :
    (pure value : StateT σ (Except ε) α) before = .ok (result, after) ↔
      value = result ∧ before = after := by
  change Except.ok (value, before) = _ ↔ _
  rw [Except.ok.injEq, Prod.mk.injEq]

/-- A computation without the state leaves the state as it is. -/
theorem run_lift_eq_ok_iff {computation : Except ε α} {result : α}
    {before after : σ} :
    (liftM computation : StateT σ (Except ε) α) before = .ok (result, after) ↔
      computation = .ok result ∧ before = after := by
  change (computation >>= fun value => Except.ok (value, before)) = _ ↔ _
  cases computation with
  | error fault => simp
  | ok value => simp

/-- A sequenced computation with a state fails in its first part, or after it. -/
theorem run_bind_eq_error_iff {first : StateT σ (Except ε) α}
    {rest : α → StateT σ (Except ε) β} {before : σ} {fault : ε} :
    (first >>= rest) before = .error fault ↔ first before = .error fault ∨
      ∃ value between, first before = .ok (value, between) ∧
        rest value between = .error fault := by
  change (first before >>= fun step => rest step.1 step.2) = _ ↔ _
  rw [bind_eq_error_iff, Prod.exists]

/-- The computation never fails with `fault`. -/
def Avoids (fault : ε) (computation : StateT σ (Except ε) α) : Prop :=
  ∀ before, computation before ≠ .error fault

section Avoids

variable {fault : ε} {first : StateT σ (Except ε) α} {rest : α → StateT σ (Except ε) β}

theorem Avoids.pure (value : α) :
    Avoids fault (Pure.pure value : StateT σ (Except ε) α) := by
  intro before h
  cases h

/-- What comes after the first part has to avoid the failure for the values that the
first part can give. -/
theorem Avoids.bind (hFirst : Avoids fault first)
    (hRest : ∀ value, (∃ before after, first before = .ok (value, after)) →
      Avoids fault (rest value)) : Avoids fault (first >>= rest) := by
  intro before h
  rcases run_bind_eq_error_iff.mp h with hEarly | ⟨value, between, hOk, hLate⟩
  · exact hFirst before hEarly
  · exact hRest value ⟨before, between, hOk⟩ between hLate

/-- A failure that the first part avoids comes after it. -/
theorem Avoids.later (hFirst : Avoids fault first) {before : σ}
    (h : (first >>= rest) before = .error fault) :
    ∃ value between, first before = .ok (value, between) ∧
      rest value between = .error fault := by
  rcases run_bind_eq_error_iff.mp h with hEarly | hLate
  · exact absurd hEarly (hFirst before)
  · exact hLate

end Avoids

end Stateful

end Foundation
end RootPermit
