import RootPermit.Foundation.Run

/-!
# The first write under a key, and the last one

A system stores what is written under a key, unless something is stored there already.
However often a write is repeated, a run ends with the first write under each key
(`firstWrites_iff`).  A register holds what was written to it last (`lastWrite_iff`).
-/

namespace RootPermit
namespace Foundation

variable {σ κ α β : Type} {step : σ → κ → σ} {start : σ}

/-- The event happens in the run, and nothing like it happened before. -/
def OccursFirst (step : σ → κ → σ) (start : σ) (calls : List κ)
    (event like : σ → κ → Prop) : Prop :=
  ∃ earlier call later, calls = earlier ++ call :: later ∧
    event (run step start earlier) call ∧ ¬ Occurs step start earlier like

theorem OccursFirst.occurs {calls : List κ} {event like : σ → κ → Prop}
    (h : OccursFirst step start calls event like) : Occurs step start calls event := by
  obtain ⟨earlier, call, later, hCalls, hEvent, -⟩ := h
  exact ⟨earlier, call, later, hCalls, hEvent⟩

/-- Nothing happens in the empty run. -/
theorem not_occurs_nil {event : σ → κ → Prop} : ¬ Occurs step start [] event := by
  rintro ⟨earlier, call, later, hCalls, -⟩
  cases earlier <;> cases hCalls

theorem occursFirst_concat_iff {calls : List κ} {call : κ} {event like : σ → κ → Prop} :
    OccursFirst step start (calls ++ [call]) event like ↔
      OccursFirst step start calls event like ∨
        (event (run step start calls) call ∧ ¬ Occurs step start calls like) := by
  constructor
  · rintro ⟨earlier, found, later, hCalls, hEvent, hNew⟩
    rcases List.eq_nil_or_concat later with rfl | ⟨rest, last, rfl⟩
    · obtain ⟨rfl, hSame⟩ := List.append_inj' hCalls rfl
      cases hSame
      exact .inr ⟨hEvent, hNew⟩
    · rw [List.concat_eq_append, ← List.cons_append, ← List.append_assoc] at hCalls
      exact .inl ⟨earlier, found, rest, (List.append_inj' hCalls rfl).1, hEvent, hNew⟩
  · rintro (⟨earlier, found, later, rfl, hEvent, hNew⟩ | ⟨hEvent, hNew⟩)
    · refine ⟨earlier, found, later ++ [call], ?_, hEvent, hNew⟩
      rw [List.append_assoc, List.cons_append]
    · exact ⟨calls, call, [], rfl, hEvent, hNew⟩

/-- The step writes something under the key. -/
def WritesUnder (writes : α × β → σ → κ → Prop) (key : α) (state : σ) (call : κ) : Prop :=
  ∃ entry : α × β, entry.1 = key ∧ writes entry state call

section Store

variable {stored : σ → List (α × β)} {writes : α × β → σ → κ → Prop}

/-- What a step stores: what is there, and what it writes under a free key. -/
def StoresFirst (step : σ → κ → σ) (stored : σ → List (α × β))
    (writes : α × β → σ → κ → Prop) : Prop :=
  ∀ state call entry, entry ∈ stored (step state call) ↔
    entry ∈ stored state ∨
      (writes entry state call ∧ ∀ other ∈ stored state, other.1 ≠ entry.1)

/-- A key is in use when something was written under it. -/
theorem mem_keys_iff (hStart : stored start = [])
    (hStep : StoresFirst step stored writes) (key : α) (calls : List κ) :
    (∃ entry ∈ stored (run step start calls), entry.1 = key) ↔
      Occurs step start calls (WritesUnder writes key) := by
  induction calls using List.reverseRecOn with
  | nil =>
      rw [run_nil, hStart]
      constructor
      · rintro ⟨entry, hEntry, -⟩
        cases hEntry
      · intro hOccurs
        exact absurd hOccurs not_occurs_nil
  | append_singleton calls call ih =>
      rw [run_concat, occurs_concat_iff, ← ih]
      constructor
      · rintro ⟨entry, hEntry, hKey⟩
        rcases (hStep _ call entry).mp hEntry with hOld | ⟨hWrites, -⟩
        · exact .inl ⟨entry, hOld, hKey⟩
        · exact .inr ⟨entry, hKey, hWrites⟩
      · rintro (⟨entry, hOld, hKey⟩ | ⟨entry, hKey, hWrites⟩)
        · exact ⟨entry, (hStep _ call entry).mpr (.inl hOld), hKey⟩
        · by_cases hUsed : ∃ other ∈ stored (run step start calls), other.1 = entry.1
          · obtain ⟨other, hOther, hSame⟩ := hUsed
            exact ⟨other, (hStep _ call other).mpr (.inl hOther), hSame.trans hKey⟩
          · have hFree : ∀ other ∈ stored (run step start calls), other.1 ≠ entry.1 :=
              fun other hOther hSame => hUsed ⟨other, hOther, hSame⟩
            exact ⟨entry, (hStep _ call entry).mpr (.inr ⟨hWrites, hFree⟩), hKey⟩

/-- A run ends with the first write under each key. -/
theorem firstWrites_iff (hStart : stored start = [])
    (hStep : StoresFirst step stored writes) (entry : α × β) (calls : List κ) :
    entry ∈ stored (run step start calls) ↔
      OccursFirst step start calls (writes entry) (WritesUnder writes entry.1) := by
  induction calls using List.reverseRecOn with
  | nil =>
      rw [run_nil, hStart]
      constructor
      · intro hEntry
        cases hEntry
      · intro hFirst
        exact absurd hFirst.occurs not_occurs_nil
  | append_singleton calls call ih =>
      rw [run_concat, occursFirst_concat_iff, ← ih, hStep, ← mem_keys_iff hStart hStep]
      have hFree : (∀ other ∈ stored (run step start calls), other.1 ≠ entry.1) ↔
          ¬ ∃ other ∈ stored (run step start calls), other.1 = entry.1 := by
        simp only [not_exists, not_and, ne_eq]
      rw [hFree]

end Store

/-! ### The last write -/

/-- The event happens in the run, and nothing like it happens after. -/
def OccursLast (step : σ → κ → σ) (start : σ) (calls : List κ)
    (event like : σ → κ → Prop) : Prop :=
  ∃ earlier call later, calls = earlier ++ call :: later ∧
    event (run step start earlier) call ∧
      ¬ Occurs step (run step start (earlier ++ [call])) later like

theorem OccursLast.occurs {calls : List κ} {event like : σ → κ → Prop}
    (h : OccursLast step start calls event like) : Occurs step start calls event := by
  obtain ⟨earlier, call, later, hCalls, hEvent, -⟩ := h
  exact ⟨earlier, call, later, hCalls, hEvent⟩

theorem occursLast_concat_iff {calls : List κ} {call : κ} {event like : σ → κ → Prop} :
    OccursLast step start (calls ++ [call]) event like ↔
      event (run step start calls) call ∨
        (OccursLast step start calls event like ∧ ¬ like (run step start calls) call) := by
  constructor
  · rintro ⟨earlier, found, later, hCalls, hEvent, hNone⟩
    rcases List.eq_nil_or_concat later with rfl | ⟨rest, last, rfl⟩
    · obtain ⟨rfl, hSame⟩ := List.append_inj' hCalls rfl
      cases hSame
      exact .inl hEvent
    · rw [List.concat_eq_append, ← List.cons_append, ← List.append_assoc] at hCalls
      obtain ⟨rfl, hSame⟩ := List.append_inj' hCalls rfl
      cases hSame
      rw [List.concat_eq_append, occurs_concat_iff, not_or, ← run_append,
        List.append_assoc, List.singleton_append] at hNone
      exact .inr ⟨⟨earlier, found, rest, rfl, hEvent, hNone.1⟩, hNone.2⟩
  · rintro (hEvent | ⟨⟨earlier, found, later, rfl, hEvent, hNone⟩, hLast⟩)
    · exact ⟨calls, call, [], rfl, hEvent, not_occurs_nil⟩
    · refine ⟨earlier, found, later ++ [call], ?_, hEvent, ?_⟩
      · rw [List.append_assoc, List.cons_append]
      · rw [occurs_concat_iff, not_or, ← run_append, List.append_assoc,
          List.singleton_append]
        exact ⟨hNone, hLast⟩

section Register

variable {view : σ → Option β} {writes : β → σ → κ → Prop}

/-- What a step leaves in the register: what it writes, or else what is there. -/
def StoresLast (step : σ → κ → σ) (view : σ → Option β) (writes : β → σ → κ → Prop) :
    Prop :=
  ∀ state call value, view (step state call) = some value ↔
    writes value state call ∨
      (view state = some value ∧ ¬ ∃ other, writes other state call)

/-- A step writes nothing and leaves the register alone, or it leaves the one value that
it writes. -/
theorem StoresLast.of_cases
    (h : ∀ state call,
      (view (step state call) = view state ∧ ∀ other, ¬ writes other state call) ∨
      ∃ written, view (step state call) = some written ∧ writes written state call ∧
        ∀ other, writes other state call → other = written) :
    StoresLast step view writes := by
  intro state call value
  rcases h state call with ⟨hSame, hNone⟩ | ⟨written, hAfter, hWritten, hOnly⟩
  · rw [hSame]
    simp only [hNone, exists_false, not_false_eq_true, and_true, false_or]
  · rw [hAfter, Option.some.injEq]
    constructor
    · rintro rfl
      exact .inl hWritten
    · rintro (hWrites | ⟨-, hNone⟩)
      · exact (hOnly value hWrites).symm
      · exact absurd ⟨written, hWritten⟩ hNone

/-- A run leaves in the register what was written last. -/
theorem lastWrite_iff (hStart : view start = none) (hStep : StoresLast step view writes)
    (value : β) (calls : List κ) :
    view (run step start calls) = some value ↔
      OccursLast step start calls (writes value)
        fun state call => ∃ other, writes other state call := by
  induction calls using List.reverseRecOn with
  | nil =>
      rw [run_nil, hStart]
      constructor
      · intro hValue
        cases hValue
      · intro hLast
        exact absurd hLast.occurs not_occurs_nil
  | append_singleton calls call ih =>
      rw [run_concat, occursLast_concat_iff, ← ih, hStep]

end Register

end Foundation
end RootPermit
