import RootPermit.Foundation.Run

/-!
# Systems whose users do not interfere

Users share a system; every call is made by one of them and gets an answer.  A user sees
a part of the state.  When a call depends only on what its user sees and changes nothing
that another user sees (`Isolated`), the answers that a user gets in a run are those of
the run without the calls of the others (`Isolated.answers_purge`).
-/

namespace RootPermit
namespace Foundation

variable {σ κ δ ν ο : Type} [DecidableEq δ]

/-- The answers that one user gets in a run. -/
def answersOf (step : σ → κ → σ) (answer : σ → κ → ο) (user : κ → δ) (who : δ) :
    σ → List κ → List ο
  | _, [] => []
  | state, call :: calls =>
      if user call = who then
        answer state call :: answersOf step answer user who (step state call) calls
      else answersOf step answer user who (step state call) calls

/-- A call depends on what its user sees, and leaves what the others see. -/
structure Isolated (step : σ → κ → σ) (answer : σ → κ → ο) (user : κ → δ)
    (view : δ → σ → ν) : Prop where
  answer : ∀ {first second call}, view (user call) first = view (user call) second →
    answer first call = answer second call
  own : ∀ {first second call}, view (user call) first = view (user call) second →
    view (user call) (step first call) = view (user call) (step second call)
  others : ∀ state call {other}, other ≠ user call →
    view other (step state call) = view other state

namespace Isolated

variable {step : σ → κ → σ} {answer : σ → κ → ο} {user : κ → δ} {view : δ → σ → ν}

/-- From states that look the same to a user, the calls of the others may be left out. -/
theorem answers_purge (h : Isolated step answer user view) (who : δ) {first second : σ}
    (hSame : view who first = view who second) (calls : List κ) :
    answersOf step answer user who first calls =
        answersOf step answer user who second
          (calls.filter fun call => decide (user call = who)) ∧
      view who (run step first calls) =
        view who (run step second (calls.filter fun call => decide (user call = who))) := by
  induction calls generalizing first second with
  | nil => exact ⟨rfl, hSame⟩
  | cons call calls ih =>
      by_cases hUser : user call = who
      · subst hUser
        obtain ⟨hAnswers, hView⟩ := ih (h.own hSame)
        rw [List.filter_cons_of_pos (by simp), answersOf, answersOf, if_pos rfl,
          if_pos rfl, h.answer hSame, hAnswers]
        exact ⟨rfl, hView⟩
      · have hKept : view who (step first call) = view who second :=
          (h.others first call (Ne.symm hUser)).trans hSame
        rw [List.filter_cons_of_neg (by simpa using hUser), answersOf, if_neg hUser]
        exact ih hKept

end Isolated

end Foundation
end RootPermit
