import Mathlib.Order.Defs.Unbundled
import RootPermit.Foundation.Outcome
import RootPermit.Foundation.Run

/-!
# Cooperative tasks

A server with one thread runs its tasks in turns.  What runs without a break is a
segment: it may change the shared state, and when it throws it leaves the changes made
so far behind.  A segment ends with an answer of its task or with a point at which
the task is suspended until something outside settles.

* `Segment.Guarantees` — from a given state, a segment relates the states before and
  after it, and what it returns satisfies a postcondition.  There is one rule for each
  way of building a segment.
* `Routine` and `Scene` — what the segments of a kind of tasks are, and the shared
  state with the tasks entered so far.  A step enters a task or resumes one, in any
  order.
* `Disciplined` — every segment respects a relation, and every task is suspended at
  a point that is admitted in the shared state.  Then the relation holds along every
  run (`Disciplined.run_related`) and all points stay admitted
  (`Disciplined.run_admitted`).
-/

namespace RootPermit
namespace Foundation

/-- A computation over a shared state; what it changed before it throws stays
changed. -/
abbrev Segment (σ ε α : Type) := ExceptT ε (StateM σ) α

namespace Segment

variable {σ ε α β : Type}

/-- Reads the state, and throws on an error. -/
def check (read : σ → Except ε α) : Segment σ ε α :=
  fun state => (read state, state)

/-- Changes the state. -/
def change (update : σ → σ) : Segment σ ε Unit :=
  fun state => (.ok (), update state)

def result (segment : Segment σ ε α) (before : σ) : Except ε α :=
  (segment before).1

def after (segment : Segment σ ε α) (before : σ) : σ :=
  (segment before).2

/-- From this state, the segment respects the relation, and what it returns satisfies
the postcondition in the state that it leaves. -/
def Guarantees (R : σ → σ → Prop) (segment : Segment σ ε α) (before : σ)
    (post : α → σ → Prop) : Prop :=
  R before (segment.after before) ∧
    ∀ value, segment.result before = .ok value → post value (segment.after before)

variable {R : σ → σ → Prop} {before : σ} {post : α → σ → Prop}

/-! ### Running a segment -/

theorem bind_of_ok {first : Segment σ ε α} {rest : α → Segment σ ε β} {value : α}
    {between : σ} (h : first before = (.ok value, between)) :
    (first >>= rest) before = rest value between := by
  change ExceptT.bindCont rest (first before).1 (first before).2 = _
  rw [h]
  rfl

theorem bind_of_error {first : Segment σ ε α} {rest : α → Segment σ ε β} {fault : ε}
    {between : σ} (h : first before = (.error fault, between)) :
    (first >>= rest) before = (.error fault, between) := by
  change ExceptT.bindCont rest (first before).1 (first before).2 = _
  rw [h]
  rfl

theorem check_bind_of_ok {read : σ → Except ε α} {rest : α → Segment σ ε β} {value : α}
    (h : read before = .ok value) : (check read >>= rest) before = rest value before :=
  bind_of_ok (Prod.ext h rfl)

theorem check_bind_of_error {read : σ → Except ε α} {rest : α → Segment σ ε β}
    {fault : ε} (h : read before = .error fault) :
    (check read >>= rest) before = (.error fault, before) :=
  bind_of_error (Prod.ext h rfl)

/-! ### The rules -/

section Rules

variable [IsPreorder σ R]

theorem Guarantees.pure {value : α} (hPost : post value before) :
    Guarantees R (Pure.pure value : Segment σ ε α) before post := by
  refine ⟨refl_of R before, ?_⟩
  intro found hFound
  cases hFound
  exact hPost

theorem Guarantees.throw {fault : ε} :
    Guarantees R (MonadExcept.throw fault : Segment σ ε α) before post := by
  refine ⟨refl_of R before, ?_⟩
  intro found hFound
  cases hFound

theorem Guarantees.check {read : σ → Except ε α}
    (hPost : ∀ value, read before = .ok value → post value before) :
    Guarantees R (Segment.check read) before post :=
  ⟨refl_of R before, hPost⟩

omit [IsPreorder σ R] in
theorem Guarantees.change {update : σ → σ} {post : Unit → σ → Prop}
    (hUpdate : R before (update before)) (hPost : post () (update before)) :
    Guarantees R (Segment.change update : Segment σ ε Unit) before post :=
  ⟨hUpdate, fun _ _ => hPost⟩

/-- The rest runs in the state that the first part leaves, with what it returned. -/
theorem Guarantees.bind {first : Segment σ ε α} {rest : α → Segment σ ε β}
    {middle : α → σ → Prop} {post : β → σ → Prop}
    (hFirst : Guarantees R first before middle)
    (hRest : ∀ value between, middle value between →
      Guarantees R (rest value) between post) :
    Guarantees R (first >>= rest) before post := by
  obtain ⟨hRelated, hMiddle⟩ := hFirst
  unfold Guarantees result after
  cases hRun : first before with
  | mk outcome between =>
      unfold after at hRelated hMiddle
      unfold result at hMiddle
      rw [hRun] at hRelated hMiddle
      cases outcome with
      | error fault =>
          rw [bind_of_error hRun]
          refine ⟨hRelated, ?_⟩
          intro found hFound
          cases hFound
      | ok value =>
          rw [bind_of_ok hRun]
          obtain ⟨hNext, hPost⟩ := hRest value between (hMiddle value rfl)
          exact ⟨trans_of R hRelated hNext, hPost⟩

/-- After a check the state is the same, and the reading was successful. -/
theorem Guarantees.check_bind {read : σ → Except ε α} {rest : α → Segment σ ε β}
    {post : β → σ → Prop}
    (hRest : ∀ value, read before = .ok value →
      Guarantees R (rest value) before post) :
    Guarantees R (Segment.check read >>= rest) before post := by
  have hCheck : Guarantees R (Segment.check read) before
      fun value state => read before = .ok value ∧ state = before :=
    Guarantees.check fun value hRead => ⟨hRead, rfl⟩
  apply hCheck.bind
  rintro value _ ⟨hRead, rfl⟩
  exact hRest value hRead

theorem Guarantees.change_bind {update : σ → σ} {rest : Unit → Segment σ ε β}
    {post : β → σ → Prop} (hUpdate : R before (update before))
    (hRest : Guarantees R (rest ()) (update before) post) :
    Guarantees R (Segment.change update >>= rest) before post := by
  have hChange : Guarantees R (Segment.change update : Segment σ ε Unit) before
      fun _ state => state = update before :=
    Guarantees.change hUpdate rfl
  apply hChange.bind
  rintro _ _ rfl
  exact hRest

end Rules

theorem Guarantees.weaken {S : σ → σ → Prop} {weaker : α → σ → Prop}
    {segment : Segment σ ε α} (h : Guarantees R segment before post)
    (hRelation : ∀ {first second}, R first second → S first second)
    (hPost : ∀ value state, post value state → weaker value state) :
    Guarantees S segment before weaker :=
  ⟨hRelation h.1, fun value hValue => hPost value _ (h.2 value hValue)⟩

theorem Guarantees.ite {condition : Prop} [Decidable condition]
    {first second : Segment σ ε α}
    (hFirst : condition → Guarantees R first before post)
    (hSecond : ¬ condition → Guarantees R second before post) :
    Guarantees R (if condition then first else second) before post := by
  by_cases hCondition : condition
  · rw [if_pos hCondition]
    exact hFirst hCondition
  · rw [if_neg hCondition]
    exact hSecond hCondition

/-! ### What a segment returns -/

/-- Whatever the segment returns, from any state, satisfies the postcondition. -/
def Returns (segment : Segment σ ε α) (post : α → Prop) : Prop :=
  ∀ before value, segment.result before = .ok value → post value

theorem Returns.pure {value : α} {post : α → Prop} (h : post value) :
    Returns (Pure.pure value : Segment σ ε α) post := by
  intro before found hFound
  cases hFound
  exact h

theorem Returns.throw {fault : ε} {post : α → Prop} :
    Returns (MonadExcept.throw fault : Segment σ ε α) post := by
  intro before found hFound
  cases hFound

theorem Returns.bind {first : Segment σ ε α} {rest : α → Segment σ ε β} {post : β → Prop}
    (h : ∀ value, Returns (rest value) post) : Returns (first >>= rest) post := by
  intro before found hFound
  unfold result at hFound
  cases hRun : first before with
  | mk outcome between =>
      cases outcome with
      | error fault =>
          rw [bind_of_error hRun] at hFound
          cases hFound
      | ok value =>
          rw [bind_of_ok hRun] at hFound
          exact h value between found hFound

theorem Returns.ite {condition : Prop} [Decidable condition]
    {first second : Segment σ ε α} {post : α → Prop} (hFirst : Returns first post)
    (hSecond : Returns second post) :
    Returns (if condition then first else second) post := by
  split
  · exact hFirst
  · exact hSecond

end Segment

/-! ### Tasks -/

/-- A task waits at a point, or has given its answer. -/
inductive Task (π ρ : Type) where
  | suspended (point : π)
  | answered (answer : ρ)

/-- The segments of the tasks: one when a call comes in, and one when what a task
waits for at a point has settled. -/
structure Routine (σ κ ν π ρ : Type) where
  enter : κ → σ → Task π ρ × σ
  resume : π → ν → σ → Task π ρ × σ

/-- The shared state, and the tasks in the order in which they came in. -/
structure Scene (σ π ρ : Type) where
  shared : σ
  tasks : List (Task π ρ)

inductive Act (κ ν : Type) where
  | enter (call : κ)
  | resume (index : Nat) (settled : ν)

variable {σ κ ν π ρ : Type}

/-- One turn: a new task, or the next segment of a suspended one. -/
def Scene.step (routine : Routine σ κ ν π ρ) (scene : Scene σ π ρ) :
    Act κ ν → Scene σ π ρ
  | .enter call =>
      { shared := (routine.enter call scene.shared).2
        tasks := scene.tasks ++ [(routine.enter call scene.shared).1] }
  | .resume index settled =>
      match scene.tasks[index]? with
      | some (.suspended point) =>
          { shared := (routine.resume point settled scene.shared).2
            tasks := scene.tasks.set index
              (routine.resume point settled scene.shared).1 }
      | _ => scene

theorem Scene.step_resume {routine : Routine σ κ ν π ρ} {scene : Scene σ π ρ}
    {index : Nat} {settled : ν} {point : π}
    (h : scene.tasks[index]? = some (.suspended point)) :
    scene.step routine (.resume index settled) =
      { shared := (routine.resume point settled scene.shared).2
        tasks := scene.tasks.set index
          (routine.resume point settled scene.shared).1 } := by
  rw [Scene.step, h]

/-- A turn that resumes no suspended task changes nothing. -/
theorem Scene.step_idle {routine : Routine σ κ ν π ρ} {scene : Scene σ π ρ}
    {index : Nat} {settled : ν}
    (h : ∀ point, scene.tasks[index]? ≠ some (.suspended point)) :
    scene.step routine (.resume index settled) = scene := by
  rw [Scene.step]
  split
  · next point hPoint => exact absurd hPoint (h point)
  · rfl

/-- A task that is suspended after a turn was there before, came in with the turn, or was
resumed by it. -/
theorem Scene.suspended_cases {routine : Routine σ κ ν π ρ} {scene : Scene σ π ρ}
    {act : Act κ ν} {index : Nat} {point : π}
    (h : (scene.step routine act).tasks[index]? = some (.suspended point)) :
    scene.tasks[index]? = some (.suspended point) ∨
      (∃ call, act = .enter call ∧ index = scene.tasks.length ∧
        (routine.enter call scene.shared).1 = .suspended point) ∨
      ∃ settled found, act = .resume index settled ∧
        scene.tasks[index]? = some (.suspended found) ∧
        (routine.resume found settled scene.shared).1 = .suspended point := by
  cases act with
  | enter call =>
      rw [Scene.step, List.getElem?_append] at h
      split at h
      · exact .inl h
      · next hNew =>
          rw [List.getElem?_singleton] at h
          split at h
          · next hIndex => exact .inr (.inl ⟨call, rfl, by omega, Option.some.inj h⟩)
          · cases h
  | resume other settled =>
      by_cases hFound : ∃ found, scene.tasks[other]? = some (.suspended found)
      · obtain ⟨found, hFound⟩ := hFound
        rw [Scene.step_resume hFound, List.getElem?_set] at h
        split at h
        · next hSame =>
            subst hSame
            split at h
            · exact .inr (.inr ⟨settled, found, rfl, hFound, Option.some.inj h⟩)
            · cases h
        · exact .inl h
      · rw [Scene.step_idle (not_exists.mp hFound)] at h
        exact .inl h

/-- Every suspended task waits at an admitted point. -/
def Scene.Admits (Admitted : π → σ → Prop) (scene : Scene σ π ρ) : Prop :=
  ∀ point, Task.suspended point ∈ scene.tasks → Admitted point scene.shared

/-- Every segment respects a preorder on the shared states, and suspends its task at
points that are admitted and that the preorder keeps admitted. -/
structure Disciplined (routine : Routine σ κ ν π ρ) (R : σ → σ → Prop)
    (Admitted : π → σ → Prop) : Prop where
  stable : ∀ {point before after}, R before after → Admitted point before →
    Admitted point after
  enter : ∀ call state, R state (routine.enter call state).2
  resume : ∀ point settled state, R state (routine.resume point settled state).2
  enterAdmitted : ∀ call state point,
    (routine.enter call state).1 = .suspended point →
      Admitted point (routine.enter call state).2
  resumeAdmitted : ∀ point settled state next, Admitted point state →
    (routine.resume point settled state).1 = .suspended next →
      Admitted next (routine.resume point settled state).2

namespace Disciplined

variable {routine : Routine σ κ ν π ρ} {R : σ → σ → Prop}
  {Admitted : π → σ → Prop}

theorem step_related [IsPreorder σ R] (h : Disciplined routine R Admitted)
    (scene : Scene σ π ρ) (act : Act κ ν) :
    R scene.shared (scene.step routine act).shared := by
  cases act with
  | enter call => exact h.enter call scene.shared
  | resume index settled =>
      rw [Scene.step]
      split
      · exact h.resume _ settled scene.shared
      · exact refl_of R _

/-- Points of other tasks stay admitted, and a new point is admitted. -/
theorem step_admitted (h : Disciplined routine R Admitted) (scene : Scene σ π ρ)
    (act : Act κ ν) (hScene : scene.Admits Admitted) :
    (scene.step routine act).Admits Admitted := by
  intro point hPoint
  cases act with
  | enter call =>
      rw [Scene.step, List.mem_append, List.mem_singleton] at hPoint
      cases hPoint with
      | inl hOld => exact h.stable (h.enter call scene.shared) (hScene point hOld)
      | inr hNew => exact h.enterAdmitted call scene.shared point hNew.symm
  | resume index settled =>
      by_cases hFound : ∃ found, scene.tasks[index]? = some (.suspended found)
      · obtain ⟨found, hFound⟩ := hFound
        have hAdmitted : Admitted found scene.shared :=
          hScene found (List.mem_of_getElem? hFound)
        rw [Scene.step_resume hFound] at hPoint ⊢
        cases List.mem_or_eq_of_mem_set hPoint with
        | inl hOld =>
            exact h.stable (h.resume found settled scene.shared) (hScene point hOld)
        | inr hNew =>
            exact h.resumeAdmitted found settled scene.shared point hAdmitted
              hNew.symm
      · rw [Scene.step_idle (not_exists.mp hFound)] at hPoint ⊢
        exact hScene point hPoint

theorem run_related [IsPreorder σ R] (h : Disciplined routine R Admitted)
    (scene : Scene σ π ρ) (acts : List (Act κ ν)) :
    R scene.shared (run (Scene.step routine) scene acts).shared :=
  Foundation.run_related
    (R := fun first second : Scene σ π ρ => R first.shared second.shared)
    (fun _ => refl_of R _) (fun hFirst hSecond => trans_of R hFirst hSecond)
    h.step_related scene acts

theorem run_admitted (h : Disciplined routine R Admitted) {scene : Scene σ π ρ}
    (hScene : scene.Admits Admitted) (acts : List (Act κ ν)) :
    (run (Scene.step routine) scene acts).Admits Admitted :=
  run_invariant hScene (fun state act hState => h.step_admitted state act hState)
    acts

end Disciplined

end Foundation
end RootPermit
