import RootPermit.Foundation.Segment

/-!
# Confined tasks

What one task may do to the shared state, whatever the other tasks do in between.  The
points at which the task is suspended stay in a set, and every segment that starts at a
point of the set respects a relation.

* `Confined` — the condition on the segments, for the outcomes that are allowed;
* `Confined.run_within` — along every run, the task stays in the set;
* `Confined.turn_related` — each of its turns respects the relation.
-/

namespace RootPermit
namespace Foundation

variable {σ κ ν π ρ : Type}

/-- From the points of the set, with an allowed outcome, a segment respects the
relation and suspends its task in the set again. -/
structure Confined (routine : Routine σ κ ν π ρ) (R : σ → σ → Prop)
    (Allowed : ν → Prop) (Inside : π → Prop) : Prop where
  related : ∀ point settled state, Inside point → Allowed settled →
    R state (routine.resume point settled state).2
  stays : ∀ point settled state next, Inside point → Allowed settled →
    (routine.resume point settled state).1 = .suspended next → Inside next

/-- There is a task with this index, and it has answered or waits inside the set. -/
structure Scene.Within (scene : Scene σ π ρ) (index : Nat) (Inside : π → Prop) :
    Prop where
  entered : index < scene.tasks.length
  inside : ∀ point, scene.tasks[index]? = some (.suspended point) → Inside point

/-- What settles for the task in this run is allowed. -/
def AllowedFor (index : Nat) (Allowed : ν → Prop) (acts : List (Act κ ν)) : Prop :=
  ∀ settled, Act.resume index settled ∈ acts → Allowed settled

theorem AllowedFor.tail {index : Nat} {Allowed : ν → Prop} {act : Act κ ν}
    {acts : List (Act κ ν)} (h : AllowedFor index Allowed (act :: acts)) :
    AllowedFor index Allowed acts :=
  fun settled hMem => h settled (List.mem_cons_of_mem _ hMem)

/-- A task is within a set right after it came in, if the first segment left it there. -/
theorem Scene.within_enter {routine : Routine σ κ ν π ρ} {scene : Scene σ π ρ} {call : κ}
    {Inside : π → Prop}
    (h : ∀ point, (routine.enter call scene.shared).1 = .suspended point →
      Inside point) :
    (scene.step routine (.enter call)).Within scene.tasks.length Inside where
  entered := by
    rw [Scene.step, List.length_append]
    exact Nat.lt_add_one _
  inside := by
    intro point hPoint
    rw [Scene.step, List.getElem?_concat_length, Option.some.injEq] at hPoint
    exact h point hPoint

/-- A turn of a task within a set respects a relation that its segments respect from the
points of the set. -/
theorem Scene.Within.turn_related {routine : Routine σ κ ν π ρ} {R : σ → σ → Prop}
    [Std.Refl R] {scene : Scene σ π ρ} {index : Nat} {Inside : π → Prop}
    (hScene : scene.Within index Inside) {settled : ν}
    (h : ∀ point, Inside point →
      R scene.shared (routine.resume point settled scene.shared).2) :
    R scene.shared (scene.step routine (.resume index settled)).shared := by
  by_cases hFound : ∃ found, scene.tasks[index]? = some (.suspended found)
  · obtain ⟨found, hFound⟩ := hFound
    rw [Scene.step_resume hFound]
    exact h found (hScene.inside found hFound)
  · rw [Scene.step_idle (not_exists.mp hFound)]
    exact Std.Refl.refl _

namespace Confined

variable {routine : Routine σ κ ν π ρ} {R : σ → σ → Prop} {Allowed : ν → Prop}
  {Inside : π → Prop} {index : Nat}

/-- Turns of other tasks leave the task where it is; its own turns keep it inside. -/
theorem step_within (h : Confined routine R Allowed Inside) {scene : Scene σ π ρ}
    (act : Act κ ν) (hScene : scene.Within index Inside)
    (hAllowed : ∀ settled, act = .resume index settled → Allowed settled) :
    (scene.step routine act).Within index Inside := by
  cases act with
  | enter call =>
      refine ⟨?_, fun point hPoint => hScene.inside point ?_⟩
      · rw [Scene.step, List.length_append]
        exact Nat.lt_add_right _ hScene.entered
      · rw [Scene.step, List.getElem?_append_left hScene.entered] at hPoint
        exact hPoint
  | resume other settled =>
      by_cases hFound : ∃ found, scene.tasks[other]? = some (.suspended found)
      · obtain ⟨found, hFound⟩ := hFound
        rw [Scene.step_resume hFound]
        refine ⟨by rw [List.length_set]; exact hScene.entered, fun point hPoint => ?_⟩
        by_cases hSame : other = index
        · subst hSame
          rw [List.getElem?_set_self hScene.entered, Option.some.injEq] at hPoint
          exact h.stays found settled scene.shared point (hScene.inside found hFound)
            (hAllowed settled rfl) hPoint
        · rw [List.getElem?_set_ne hSame] at hPoint
          exact hScene.inside point hPoint
      · rw [Scene.step_idle (not_exists.mp hFound)]
        exact hScene

theorem run_within (h : Confined routine R Allowed Inside) {scene : Scene σ π ρ}
    (hScene : scene.Within index Inside) (acts : List (Act κ ν))
    (hAllowed : AllowedFor index Allowed acts) :
    (run (Scene.step routine) scene acts).Within index Inside := by
  induction acts generalizing scene with
  | nil => exact hScene
  | cons act acts ih =>
      refine ih (h.step_within act hScene fun settled hAct => ?_) hAllowed.tail
      apply hAllowed settled
      rw [hAct]
      exact List.mem_cons_self

/-- A turn of a task within the set respects the relation. -/
theorem turn_related [Std.Refl R] (h : Confined routine R Allowed Inside)
    {scene : Scene σ π ρ} (hScene : scene.Within index Inside) {settled : ν}
    (hAllowed : Allowed settled) :
    R scene.shared (scene.step routine (.resume index settled)).shared :=
  hScene.turn_related fun point hPoint =>
    h.related point settled scene.shared hPoint hAllowed

end Confined

end Foundation
end RootPermit
