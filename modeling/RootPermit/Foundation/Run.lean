import Mathlib.Data.List.Basic
import Mathlib.Data.List.Induction

/-!
# Runs of a step function

A system takes one step per call; a run is a sequence of calls from a start
state.  Four rules cover the properties of whole runs:

* `run_invariant` — what every step preserves holds at the end of every run;
* `run_related` — a reflexive and transitive relation that every step respects
  relates any state of a run to every later one;
* `occurs_of_reached` — a property that does not hold at the start and holds at
  the end was established by some step of the run;
* `atMostOnce_of_settled` — an event happens at most once when it settles something
  that every step preserves and that excludes the event.

The first and the third come with a side condition that has to hold throughout the
run, because a condition on the calls of a run is as common as a condition on its
states.
-/

namespace RootPermit
namespace Foundation

variable {σ κ : Type} {step : σ → κ → σ}

/-- The state after a sequence of calls. -/
def run (step : σ → κ → σ) (start : σ) (calls : List κ) : σ :=
  calls.foldl step start

@[simp] theorem run_nil (start : σ) : run step start [] = start := rfl

@[simp] theorem run_cons (start : σ) (call : κ) (calls : List κ) :
    run step start (call :: calls) = run step (step start call) calls := rfl

theorem run_append (start : σ) (earlier later : List κ) :
    run step start (earlier ++ later) = run step (run step start earlier) later :=
  List.foldl_append

@[simp] theorem run_concat (start : σ) (calls : List κ) (call : κ) :
    run step start (calls ++ [call]) = step (run step start calls) call :=
  run_append start calls [call]

/-- Some call of the run is made in a state in which `event` holds of it. -/
def Occurs (step : σ → κ → σ) (start : σ) (calls : List κ)
    (event : σ → κ → Prop) : Prop :=
  ∃ earlier call later, calls = earlier ++ call :: later ∧
    event (run step start earlier) call

/-- Every call of the run is made in a state in which `condition` holds of it. -/
def Throughout (step : σ → κ → σ) (start : σ) (calls : List κ)
    (condition : σ → κ → Prop) : Prop :=
  ∀ earlier call later, calls = earlier ++ call :: later →
    condition (run step start earlier) call

/-- No two calls of the run are made in states in which `event` holds of them. -/
def AtMostOnce (step : σ → κ → σ) (start : σ) (calls : List κ)
    (event : σ → κ → Prop) : Prop :=
  ∀ earlier first between second later,
    calls = earlier ++ first :: between ++ second :: later →
    event (run step start earlier) first →
    ¬ event (run step start (earlier ++ first :: between)) second

variable {start : σ} {calls : List κ} {call : κ} {event condition : σ → κ → Prop}

theorem Occurs.concat (h : Occurs step start calls event) :
    Occurs step start (calls ++ [call]) event := by
  obtain ⟨earlier, found, later, rfl, hEvent⟩ := h
  refine ⟨earlier, found, later ++ [call], ?_, hEvent⟩
  rw [List.append_assoc, List.cons_append]

theorem Occurs.last (h : event (run step start calls) call) :
    Occurs step start (calls ++ [call]) event :=
  ⟨calls, call, [], rfl, h⟩

theorem occurs_concat_iff : Occurs step start (calls ++ [call]) event ↔
    Occurs step start calls event ∨ event (run step start calls) call := by
  constructor
  · rintro ⟨earlier, found, later, hCalls, hEvent⟩
    rcases List.eq_nil_or_concat later with rfl | ⟨rest, last, rfl⟩
    · obtain ⟨rfl, hSame⟩ := List.append_inj' hCalls rfl
      cases hSame
      exact .inr hEvent
    · rw [List.concat_eq_append, ← List.cons_append, ← List.append_assoc] at hCalls
      exact .inl ⟨earlier, found, rest, (List.append_inj' hCalls rfl).1, hEvent⟩
  · rintro (hEarlier | hLast)
    · exact hEarlier.concat
    · exact .last hLast

theorem Throughout.of_mem (h : ∀ call ∈ calls, ∀ state, condition state call) :
    Throughout step start calls condition := by
  intro earlier found later hCalls
  apply h found
  rw [hCalls]
  exact List.mem_append_right _ List.mem_cons_self

theorem Occurs.exists_mem (h : Occurs step start calls event) :
    ∃ call ∈ calls, ∃ state, event state call := by
  obtain ⟨earlier, call, later, rfl, hEvent⟩ := h
  exact ⟨call, List.mem_append_right _ List.mem_cons_self, _, hEvent⟩

/-- A condition on a run is a condition on its beginning. -/
theorem Throughout.of_prefix {earlier : List κ}
    (h : Throughout step start calls condition) (hPrefix : earlier <+: calls) :
    Throughout step start earlier condition := by
  intro front found back hFound
  obtain ⟨later, rfl⟩ := hPrefix
  apply h front found (back ++ later)
  rw [hFound, List.append_assoc, List.cons_append]

theorem Throughout.initial (h : Throughout step start (calls ++ [call]) condition) :
    Throughout step start calls condition :=
  h.of_prefix (List.prefix_append _ _)

theorem Throughout.last (h : Throughout step start (calls ++ [call]) condition) :
    condition (run step start calls) call :=
  h calls call [] rfl

/-- A condition on a run is a condition on what is left of it. -/
theorem Throughout.rest {earlier later : List κ}
    (h : Throughout step start (earlier ++ later) condition) :
    Throughout step (run step start earlier) later condition := by
  intro front found back hLater
  rw [← run_append]
  apply h (earlier ++ front) found back
  rw [hLater, List.append_assoc]

/-- What every permitted step preserves holds at the end of every permitted
run. -/
theorem run_invariant_of_throughout {I : σ → Prop} (hStart : I start)
    (hStep : ∀ state call, I state → condition state call → I (step state call))
    (hCalls : Throughout step start calls condition) :
    I (run step start calls) := by
  induction calls using List.reverseRecOn with
  | nil => exact hStart
  | append_singleton calls call ih =>
      rw [run_concat]
      exact hStep _ call (ih hCalls.initial) hCalls.last

/-- What every step preserves holds at the end of every run. -/
theorem run_invariant {I : σ → Prop} (hStart : I start)
    (hStep : ∀ state call, I state → I (step state call)) (calls : List κ) :
    I (run step start calls) := by
  have hCalls : Throughout step start calls fun _ _ => True :=
    fun _ _ _ _ => trivial
  exact run_invariant_of_throughout hStart
    (fun state call hState _ => hStep state call hState) hCalls

/-- A reflexive and transitive relation that every step respects relates the two
ends of every run. -/
theorem run_related {R : σ → σ → Prop} (hRefl : ∀ state, R state state)
    (hTrans : ∀ {first second third}, R first second → R second third →
      R first third)
    (hStep : ∀ state call, R state (step state call)) (start : σ)
    (calls : List κ) : R start (run step start calls) := by
  induction calls generalizing start with
  | nil => exact hRefl start
  | cons call calls ih =>
      rw [run_cons]
      exact hTrans (hStep start call) (ih (step start call))

/-- A property that the start does not have and the end has comes to hold with some
step. -/
theorem occurs_turn {Q : σ → Prop} (hUnreached : ¬ Q start)
    (hReached : Q (run step start calls)) :
    Occurs step start calls fun state call => ¬ Q state ∧ Q (step state call) := by
  induction calls using List.reverseRecOn with
  | nil => exact absurd hReached hUnreached
  | append_singleton calls call ih =>
      by_cases hBefore : Q (run step start calls)
      · exact (ih hBefore).concat
      · -- The last call is the one that establishes the property.
        rw [run_concat] at hReached
        exact Occurs.last ⟨hBefore, hReached⟩

/-- A property that the start does not have and the end has was established by
some step. -/
theorem occurs_of_reached {Q : σ → Prop} (hUnreached : ¬ Q start)
    (hCause : ∀ state call, condition state call → ¬ Q state →
      Q (step state call) → event state call)
    (hCalls : Throughout step start calls condition)
    (hReached : Q (run step start calls)) : Occurs step start calls event := by
  obtain ⟨earlier, call, later, hShape, hBefore, hAfter⟩ :=
    occurs_turn hUnreached hReached
  exact ⟨earlier, call, later, hShape,
    hCause _ call (hCalls earlier call later hShape) hBefore hAfter⟩

/-- An event happens at most once when it settles something that every step
preserves and that excludes the event. -/
theorem atMostOnce_of_settled {D : σ → Prop}
    (hSettles : ∀ state call, event state call → D (step state call))
    (hStep : ∀ state call, D state → D (step state call))
    (hExcludes : ∀ state call, D state → ¬ event state call) (start : σ)
    (calls : List κ) : AtMostOnce step start calls event := by
  intro earlier first between second later _ hFirst
  apply hExcludes
  rw [run_append, run_cons]
  exact run_invariant (hSettles _ first hFirst) hStep between

end Foundation
end RootPermit
