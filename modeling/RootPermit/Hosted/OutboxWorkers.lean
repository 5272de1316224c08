import RootPermit.Hosted.OutboxLeases

/-!
# The workers of the outbox

* `RunOnce.complete_cases`, `RunOnce.reschedule_cases`, `RunOnce.deliver_cases` — what a
  step of a worker can do;
* `statement_of_superseded` — after a later claim, a worker changes nothing;
* `complete_of_gone` — a worker makes a row go only by completing it;
* `occurs_delivery` — what a worker completes, it has delivered;
* `Completed.step` — what was completed is gone for good.
-/

namespace RootPermit
namespace Hosted
namespace Outbox

open Foundation

/-! ### The steps of a worker -/

namespace RunOnce

variable {run : RunOnce} {rows : List Row}

/-- A delivery checks the next row, and is then noted as done or failed. -/
theorem deliver_cases (run : RunOnce) (outcome : Except Thrown Unit) :
    run.deliver outcome = run ∨
      ∃ item, run.current? = some item ∧ run.phase = .next ∧
        ((∃ message, run.deliver outcome = { run with phase := .rejected message }) ∨
          (outcome = .ok () ∧ run.deliver outcome = { run with phase := .delivered }) ∨
          ∃ delay, run.deliver outcome = { run with phase := .failed delay }) := by
  unfold deliver
  split
  · rename_i item hPhase hItem
    refine .inr ⟨item, hItem, hPhase, ?_⟩
    cases claimedItem item with
    | error message => exact .inl ⟨message, rfl⟩
    | ok checked =>
        cases outcome with
        | ok done => exact .inr (.inl ⟨rfl, rfl⟩)
        | error thrown => exact .inr (.inr ⟨_, rfl⟩)
  · exact .inl rfl

/-- A completion works on a delivered item only. -/
theorem complete_cases (run : RunOnce) (ending : TransactionEnd) (rows : List Row) :
    run.complete ending rows = (run, rows) ∨
      ∃ item, run.current? = some item ∧ run.phase = .delivered ∧
        (run.complete ending rows =
            ({ run.advance with
                completed := if (deleteClaimed item rows).1.length = 1 then
                    run.completed ++ [item.id]
                  else run.completed },
              (deleteClaimed item rows).2) ∨
          ∃ delay,
            run.complete ending rows = ({ run with phase := .failed delay }, rows) ∨
            run.complete ending rows =
              ({ run with phase := .failed delay }, (deleteClaimed item rows).2)) := by
  unfold complete
  split
  · rename_i item hPhase hItem
    refine .inr ⟨item, hItem, hPhase, ?_⟩
    cases ending with
    | committed => exact .inl rfl
    | rolledBack thrown => exact .inr ⟨_, .inl rfl⟩
    | unanswered thrown => exact .inr ⟨_, .inr rfl⟩
  · exact .inl rfl

/-- A rescheduling works on a failed item only, and ends the work on it. -/
theorem reschedule_cases (run : RunOnce) (now : Int) (ending : TransactionEnd)
    (rows : List Row) :
    run.reschedule now ending rows = (run, rows) ∨
      ∃ item delay, run.current? = some item ∧ run.phase = .failed delay ∧
        ((∃ message, run.reschedule now ending rows =
            ({ run with phase := .rejected message }, rows)) ∨
          ∃ changed, rescheduleClaimed item now delay rows = .ok changed ∧
            (run.reschedule now ending rows = (run.advance, changed) ∨
              ∃ message, run.reschedule now ending rows =
                ({ run with phase := .rejected message }, changed))) := by
  unfold reschedule
  split
  · rename_i delay item hPhase hItem
    refine .inr ⟨item, delay, hItem, hPhase, ?_⟩
    cases hChanged : rescheduleClaimed item now delay rows with
    | error fault => exact .inl ⟨_, rfl⟩
    | ok changed =>
        cases ending with
        | committed => exact .inr ⟨changed, rfl, .inl rfl⟩
        | rolledBack thrown => exact .inl ⟨_, rfl⟩
        | unanswered thrown => exact .inr ⟨changed, rfl, .inr ⟨_, rfl⟩⟩
  · exact .inl rfl

/-- A completion deletes, or leaves the table as it is. -/
theorem complete_rows (run : RunOnce) (ending : TransactionEnd) (rows : List Row) :
    (run.complete ending rows).2 = rows ∨
      ∃ item, run.current? = some item ∧ run.phase = .delivered ∧
        (run.complete ending rows).2 = (deleteClaimed item rows).2 := by
  rcases run.complete_cases ending rows with hSame | ⟨item, hItem, hPhase, hEnd⟩
  · exact .inl (by rw [hSame])
  · rcases hEnd with hEnd | ⟨_, hEnd | hEnd⟩
    · exact .inr ⟨item, hItem, hPhase, by rw [hEnd]⟩
    · exact .inl (by rw [hEnd])
    · exact .inr ⟨item, hItem, hPhase, by rw [hEnd]⟩

/-- After a rescheduling that changes the table, the worker goes on or is rejected. -/
theorem reschedule_done {now : Int} {ending : TransactionEnd}
    (hChanged : (run.reschedule now ending rows).2 ≠ rows) :
    (run.reschedule now ending rows).1 = run.advance ∨
      ∃ message, (run.reschedule now ending rows).1.phase = .rejected message := by
  rcases run.reschedule_cases now ending rows with hSame | hWork
  · rw [hSame] at hChanged
    exact absurd rfl hChanged
  · obtain ⟨_, _, -, -, hEnd⟩ := hWork
    rcases hEnd with ⟨message, hEnd⟩ | ⟨_, -, hEnd | ⟨message, hEnd⟩⟩
    · exact .inr ⟨message, by rw [hEnd]⟩
    · exact .inl (by rw [hEnd])
    · exact .inr ⟨message, by rw [hEnd]⟩

/-- A rescheduling postpones rows, or leaves the table as it is. -/
theorem reschedule_rows (run : RunOnce) (now : Int) (ending : TransactionEnd)
    (rows : List Row) :
    (run.reschedule now ending rows).2 = rows ∨
      ∃ item delay, run.current? = some item ∧ run.phase = .failed delay ∧
        (run.reschedule now ending rows).2 =
          Table.update (fun row => decide (Guarded item.tenantId item row))
            (postpone now delay) rows := by
  rcases run.reschedule_cases now ending rows with hSame | hWork
  · exact .inl (by rw [hSame])
  · obtain ⟨item, delay, hItem, hPhase, hEnd⟩ := hWork
    rcases hEnd with ⟨_, hEnd⟩ | ⟨changed, hChanged, hEnd | ⟨_, hEnd⟩⟩
    · exact .inl (by rw [hEnd])
    · exact .inr ⟨item, delay, hItem, hPhase, by
        rw [hEnd, rescheduleClaimed_eq_ok hChanged]⟩
    · exact .inr ⟨item, delay, hItem, hPhase, by
        rw [hEnd, rescheduleClaimed_eq_ok hChanged]⟩

end RunOnce

/-! ### The rows that a statement touches -/

/-- The call is a statement of this `runOnce` on a row that it claimed. -/
def Call.IsStatementOf (index : Nat) : Call → Prop
  | .complete found _ => found = index
  | .reschedule found _ _ => found = index
  | _ => False

/-- What a statement of a worker does to the table. -/
inductive Touched (item : ClaimedOutboxRow) (before : List Row) : List Row → Prop where
  | untouched : Touched item before before
  | deleted : Touched item before
      (before.filter fun row => decide (¬ Guarded item.tenantId item row))
  | postponed (now retryAfterMs : Int) : Touched item before
      (Table.update (fun row => decide (Guarded item.tenantId item row))
        (postpone now retryAfterMs) before)

namespace Touched

variable {item : ClaimedOutboxRow} {before after : List Row}

/-- Without a row that passes the guard nothing is changed. -/
theorem eq_of_forall_not (h : Touched item before after)
    (hNone : ∀ row ∈ before, ¬ Guarded item.tenantId item row) : after = before := by
  cases h with
  | untouched => rfl
  | deleted =>
      rw [List.filter_eq_self]
      intro row hRow
      exact decide_eq_true (hNone row hRow)
  | postponed now retryAfterMs =>
      have hSame : before.map (fun row => if decide (Guarded item.tenantId item row)
          then postpone now retryAfterMs row else row) = before.map id := by
        apply List.map_congr_left
        intro row hRow
        rw [if_neg (by simpa using hNone row hRow)]
        rfl
      rw [Table.update, hSame, List.map_id]

/-- A row that is not in the table any more, or has changed, passed the guard. -/
theorem guarded_of_not_mem (h : Touched item before after) {row : Row}
    (hRow : row ∈ before) (hGone : row ∉ after) : Guarded item.tenantId item row := by
  by_contra hOther
  apply hGone
  cases h with
  | untouched => exact hRow
  | deleted => exact List.mem_filter.mpr ⟨hRow, decide_eq_true hOther⟩
  | postponed now retryAfterMs =>
      refine List.mem_map.mpr ⟨row, hRow, ?_⟩
      rw [if_neg (by simpa using hOther)]

/-- Other rows than the one of the item are not touched. -/
theorem filter_other (h : Touched item before after) :
    (after.filter fun row => decide (row.id ≠ item.id)) =
      before.filter fun row => decide (row.id ≠ item.id) := by
  cases h with
  | untouched => rfl
  | deleted =>
      rw [List.filter_filter]
      apply List.filter_congr
      intro row _
      have hOther : row.id ≠ item.id → ¬ Guarded item.tenantId item row :=
        fun hId hGuarded => hId hGuarded.2.1
      by_cases hId : row.id = item.id
      · simp [hId]
      · simp [hId, hOther hId]
  | postponed now retryAfterMs =>
      induction before with
      | nil => rfl
      | cons row rows ih =>
          have hIds : (postpone now retryAfterMs row).id = row.id :=
            congrArg ClaimedOutboxRow.id (claimed_postpone now retryAfterMs row)
          rw [Table.update] at ih
          rw [Table.update, List.map_cons, List.filter_cons, List.filter_cons, ih]
          by_cases hGuarded : Guarded item.tenantId item row
          · simp [hGuarded, hIds, hGuarded.2.1]
          · simp [hGuarded]

end Touched

/-- A statement of a worker touches the row of its current item. -/
theorem complete_touched {run : RunOnce} {item : ClaimedOutboxRow}
    (hItem : run.current? = some item) (ending : RunOnce.TransactionEnd)
    (rows : List Row) : Touched item rows (run.complete ending rows).2 := by
  rcases run.complete_rows ending rows with hSame | ⟨found, hFound, -, hDeleted⟩
  · rw [hSame]
    exact .untouched
  · rw [hItem, Option.some.injEq] at hFound
    subst hFound
    rw [hDeleted]
    exact .deleted

theorem reschedule_touched {run : RunOnce} {item : ClaimedOutboxRow}
    (hItem : run.current? = some item) (now : Int) (ending : RunOnce.TransactionEnd)
    (rows : List Row) : Touched item rows (run.reschedule now ending rows).2 := by
  rcases run.reschedule_rows now ending rows with hSame | hWork
  · rw [hSame]
    exact .untouched
  · obtain ⟨found, delay, hFound, -, hPostponed⟩ := hWork
    rw [hItem, Option.some.injEq] at hFound
    subst hFound
    rw [hPostponed]
    exact .postponed now delay

theorem step_of_run {system : System} {index : Nat} {run : RunOnce}
    (hRun : system.runs[index]? = some run)
    (work : RunOnce → List Row → RunOnce × List Row) :
    system.withRun index work =
      { system with
        rows := (work run system.rows).2
        runs := system.runs.set index (work run system.rows).1 } := by
  rw [System.withRun, hRun]

/-- The table still has a row with this identifier. -/
def Has (id : String) (rows : List Row) : Prop :=
  ∃ row ∈ rows, row.id = id

theorem has_update {condition : Row → Bool} {change : Row → Row} {rows : List Row}
    {id : String} (hChange : ∀ row, (change row).id = row.id) (h : Has id rows) :
    Has id (Table.update condition change rows) := by
  obtain ⟨row, hRow, rfl⟩ := h
  refine ⟨_, List.mem_map_of_mem hRow, ?_⟩
  split
  · exact hChange row
  · rfl

theorem has_append {rows added : List Row} {id : String} (h : Has id rows) :
    Has id (rows ++ added) := by
  obtain ⟨row, hRow, hId⟩ := h
  exact ⟨row, List.mem_append_left _ hRow, hId⟩

/-! ### The table after a step -/

section Rules

variable {P : List Row → Prop} {system : System}

theorem rows_withUuid {id : String}
    {statement : List Row → Except QueueError (List Row)} (h : P system.rows)
    (hStatement : ∀ rows, id ∉ system.drawn → statement system.rows = .ok rows →
      P rows) : P (system.withUuid id statement).rows := by
  unfold System.withUuid
  split
  · exact h
  · rename_i hFresh
    cases hRows : statement system.rows with
    | error fault => exact h
    | ok rows => exact hStatement rows hFresh hRows

theorem rows_claim {limit : Number} {locked : List String} {clock : ClockReadings}
    (h : P system.rows)
    (hLeased : ∀ chosen : List Row, P (Table.update
      (fun row => decide (row.id ∈ chosen.map Row.id)) (lease clock) system.rows)) :
    P (system.claim limit locked clock).rows := by
  unfold System.claim
  split
  · exact h
  · split
    · exact h
    · rename_i claimed rows hClaim
      obtain ⟨-, rfl⟩ := claimOutbox_eq_ok hClaim
      exact hLeased _

theorem rows_withRun {index : Nat} {work : RunOnce → List Row → RunOnce × List Row}
    (h : P system.rows)
    (hWork : ∀ run, system.runs[index]? = some run → P (work run system.rows).2) :
    P (system.withRun index work).rows := by
  unfold System.withRun
  split
  · exact h
  · rename_i run hRun
    exact hWork run hRun

end Rules

theorem runs_withUuid (system : System) (id : String)
    (statement : List Row → Except QueueError (List Row)) :
    (system.withUuid id statement).runs = system.runs := by
  unfold System.withUuid
  split <;> rfl

/-- A claim that succeeds starts an execution. -/
theorem runs_claim (system : System) (limit : Number) (locked : List String)
    (clock : ClockReadings) :
    (system.claim limit locked clock).runs = system.runs ∨
      ∃ claimed, (system.claim limit locked clock).runs = system.runs ++
        [{ claimed, position := 0, phase := .next, completed := [] }] := by
  unfold System.claim
  split
  · exact .inl rfl
  · split
    · exact .inl rfl
    · exact .inr ⟨_, rfl⟩

/-! ### Completed identifiers -/

/-- What was completed is gone, and was completed once. -/
structure Completed (system : System) : Prop where
  gone : ∀ {index : Nat} {run : RunOnce} {id : String}, system.runs[index]? = some run →
    id ∈ run.completed → id ∈ system.drawn ∧ ¬ Has id system.rows
  once : ∀ {first second : Nat} {run other : RunOnce} {id : String},
    system.runs[first]? = some run → system.runs[second]? = some other →
    id ∈ run.completed → id ∈ other.completed → first = second
  nodup : ∀ {index : Nat} {run : RunOnce}, system.runs[index]? = some run →
    run.completed.Nodup

theorem Completed.empty : Completed System.empty := by
  refine ⟨?_, ?_, ?_⟩
  · intro index run id hRun
    cases hRun
  · intro first second run other id hRun
    cases hRun
  · intro index run hRun
    cases hRun

/-- A deletion that returns one identifier leaves no row of it. -/
theorem not_has_deleteClaimed {rows : List Row} {item : ClaimedOutboxRow}
    (hKeyed : Table.Keyed Row.id rows)
    (hOne : (deleteClaimed item rows).1.length = 1) :
    Has item.id rows ∧ ¬ Has item.id (deleteClaimed item rows).2 := by
  obtain ⟨id, hId⟩ := List.length_eq_one_iff.mp hOne
  have hMem : id ∈ (deleteClaimed item rows).1 := by
    rw [hId]
    exact List.mem_singleton_self id
  obtain ⟨row, hFiltered, -⟩ := List.mem_map.mp hMem
  rw [List.mem_filter, decide_eq_true_eq] at hFiltered
  obtain ⟨hRow, hGuarded⟩ := hFiltered
  refine ⟨⟨row, hRow, hGuarded.2.1⟩, ?_⟩
  rintro ⟨other, hOther, hSame⟩
  have hLeft := List.mem_filter.mp hOther
  have hEq : other = row :=
    List.inj_on_of_nodup_map hKeyed hLeft.1 hRow (hSame.trans hGuarded.2.1.symm)
  rw [hEq] at hLeft
  exact of_decide_eq_true hLeft.2 hGuarded

/-! ### What becomes of a `runOnce` -/

/-- What a call makes of one `runOnce`. -/
inductive Continues (system : System) (call : Call) (index : Nat) (run : RunOnce) :
    RunOnce → Prop where
  | idle : Continues system call index run run
  | deliver (outcome : Except Thrown Unit) (hCall : call = .deliver index outcome) :
      Continues system call index run (run.deliver outcome)
  | complete (ending : RunOnce.TransactionEnd) (hCall : call = .complete index ending) :
      Continues system call index run (run.complete ending system.rows).1
  | reschedule (now : Int) (ending : RunOnce.TransactionEnd)
      (hCall : call = .reschedule index now ending) :
      Continues system call index run (run.reschedule now ending system.rows).1

namespace Continues

variable {system : System} {call : Call} {index : Nat} {run after : RunOnce}

theorem claimed_eq (h : Continues system call index run after) :
    after.claimed = run.claimed := by
  cases h with
  | idle => rfl
  | deliver outcome _ => exact claimed_deliver run outcome
  | complete ending _ => exact (claimed_complete run ending system.rows).1
  | reschedule now ending _ => exact (claimed_reschedule run now ending system.rows).1

/-- The loop does not go back, and a rejected `runOnce` does not go on. -/
theorem position_le (h : Continues system call index run after) :
    run.position ≤ after.position ∧
      ∀ message, run.phase = .rejected message → after = run := by
  cases h with
  | idle => exact ⟨Nat.le_refl _, fun _ _ => rfl⟩
  | deliver outcome _ =>
      rcases run.deliver_cases outcome with hSame | ⟨item, -, hPhase, hEnd⟩
      · rw [hSame]
        exact ⟨Nat.le_refl _, fun _ _ => rfl⟩
      · refine ⟨?_, fun message hRejected => ?_⟩
        · rcases hEnd with ⟨_, hEnd⟩ | ⟨-, hEnd⟩ | ⟨_, hEnd⟩ <;> rw [hEnd]
        · rw [hPhase] at hRejected
          cases hRejected
  | complete ending _ =>
      rcases run.complete_cases ending system.rows with hSame | ⟨item, -, hPhase, hEnd⟩
      · rw [hSame]
        exact ⟨Nat.le_refl _, fun _ _ => rfl⟩
      · refine ⟨?_, fun message hRejected => ?_⟩
        · rcases hEnd with hEnd | ⟨_, hEnd | hEnd⟩ <;> rw [hEnd]
          exact Nat.le_succ _
        · rw [hPhase] at hRejected
          cases hRejected
  | reschedule now ending _ =>
      rcases run.reschedule_cases now ending system.rows with hSame | hWork
      · rw [hSame]
        exact ⟨Nat.le_refl _, fun _ _ => rfl⟩
      · obtain ⟨item, delay, -, hPhase, hEnd⟩ := hWork
        refine ⟨?_, fun message hRejected => ?_⟩
        · rcases hEnd with ⟨_, hEnd⟩ | ⟨_, -, hEnd | ⟨_, hEnd⟩⟩ <;> rw [hEnd]
          exact Nat.le_succ _
        · rw [hPhase] at hRejected
          cases hRejected

/-- Only a successful delivery makes an item a delivered one. -/
theorem deliver_of_delivered (h : Continues system call index run after)
    (hAfter : after.phase = .delivered) :
    (run.phase = .delivered ∧ after.current? = run.current?) ∨
      (call = .deliver index (.ok ()) ∧ after.current? = run.current?) := by
  cases h with
  | idle => exact .inl ⟨hAfter, rfl⟩
  | deliver outcome hCall =>
      rcases run.deliver_cases outcome with hSame | ⟨item, -, hPhase, hEnd⟩
      · rw [hSame] at hAfter ⊢
        exact .inl ⟨hAfter, rfl⟩
      · rcases hEnd with ⟨_, hEnd⟩ | ⟨rfl, hEnd⟩ | ⟨_, hEnd⟩
        · rw [hEnd] at hAfter
          cases hAfter
        · rw [hEnd]
          exact .inr ⟨hCall, rfl⟩
        · rw [hEnd] at hAfter
          cases hAfter
  | complete ending _ =>
      rcases run.complete_cases ending system.rows with hSame | ⟨item, -, hPhase, hEnd⟩
      · rw [hSame] at hAfter ⊢
        exact .inl ⟨hAfter, rfl⟩
      · rcases hEnd with hEnd | ⟨_, hEnd | hEnd⟩ <;>
          rw [hEnd] at hAfter <;> cases hAfter
  | reschedule now ending _ =>
      rcases run.reschedule_cases now ending system.rows with hSame | hWork
      · rw [hSame] at hAfter ⊢
        exact .inl ⟨hAfter, rfl⟩
      · obtain ⟨item, delay, -, hPhase, hEnd⟩ := hWork
        rcases hEnd with ⟨_, hEnd⟩ | ⟨_, -, hEnd | ⟨_, hEnd⟩⟩ <;>
          rw [hEnd] at hAfter <;> cases hAfter

end Continues

/-! ### The statements of a worker -/

variable [Cryptography]

theorem statement_touched {system : System} {index : Nat} {run : RunOnce}
    {item : ClaimedOutboxRow} (hRun : system.runs[index]? = some run)
    (hItem : run.current? = some item) {call : Call}
    (hCall : call.IsStatementOf index) :
    Touched item system.rows (system.step call).rows := by
  cases call with
  | complete found ending =>
      cases hCall
      rw [System.step, step_of_run hRun]
      exact complete_touched hItem ending system.rows
  | reschedule found now ending =>
      cases hCall
      rw [System.step, step_of_run hRun]
      exact reschedule_touched hItem now ending system.rows
  | _ => cases hCall

/-- After a later claim of the row, the statements of a worker change nothing. -/
theorem statement_of_superseded {system : System} (h : Sound system) {index : Nat}
    {run : RunOnce} {item : ClaimedOutboxRow} (hRun : system.runs[index]? = some run)
    (hItem : run.current? = some item) {call : Call} (hCall : call.IsStatementOf index)
    (hLater : Superseded system index item.id) :
    (system.step call).rows = system.rows := by
  refine (statement_touched hRun hItem hCall).eq_of_forall_not ?_
  intro row hRow hGuarded
  have hCurrent := (guarded_iff h hRun (mem_claimed_of_current hItem) hRow).mp hGuarded
  exact hCurrent.2 hLater

/-! ### Rows that go -/

/-- Every call but a completion and the clearing of a resync request keeps all rows. -/
theorem has_step {system : System} {call : Call} {id : String}
    (hWorker : ∀ key, call ≠ .replace key)
    (hOther : ∀ index ending, call ≠ .complete index ending) (h : Has id system.rows) :
    Has id (system.step call).rows := by
  cases call with
  | enqueue event drawn now =>
      refine rows_withUuid h fun rows _ hRows => ?_
      rw [(insert_eq_ok hRows).1]
      exact has_append h
  | freeze key observedDigest drawn now =>
      refine rows_withUuid h fun rows _ hRows => ?_
      rcases queueResync_eq_ok hRows with ⟨-, rfl⟩ | ⟨-, hInserted⟩
      · refine has_update (fun row => ?_) h
        exact congrArg ClaimedOutboxRow.id (claimed_release _ _)
      · rw [(insert_eq_ok hInserted).1]
        exact has_append h
  | replace key => exact absurd rfl (hWorker key)
  | claim limit locked clock =>
      exact rows_claim h fun chosen => has_update (fun _ => rfl) h
  | deliver index outcome => exact rows_withRun h fun _ _ => h
  | complete index ending => exact absurd rfl (hOther index ending)
  | reschedule index now ending =>
      refine rows_withRun h fun run _ => ?_
      rcases run.reschedule_rows now ending system.rows with hSame | hWork
      · rw [hSame]
        exact h
      · obtain ⟨item, delay, -, -, hPostponed⟩ := hWork
        rw [hPostponed]
        refine has_update (fun row => ?_) h
        exact congrArg ClaimedOutboxRow.id (claimed_postpone _ _ row)

/-- Besides the repository, which clears a resync request, only the completion of a
delivered item makes a row go. -/
theorem complete_of_gone {system : System} {call : Call} {row : Row}
    (hRow : row ∈ system.rows) (hGone : ¬ Has row.id (system.step call).rows)
    (hWorker : ∀ key, call ≠ .replace key) :
    ∃ index ending run item, call = .complete index ending ∧
      system.runs[index]? = some run ∧ run.current? = some item ∧
      run.phase = .delivered ∧ Guarded item.tenantId item row := by
  have hHas : Has row.id system.rows := ⟨row, hRow, rfl⟩
  have hComplete : ∃ index ending, call = .complete index ending := by
    by_contra hOther
    push Not at hOther
    exact hGone (has_step hWorker hOther hHas)
  obtain ⟨index, ending, rfl⟩ := hComplete
  cases hRun : system.runs[index]? with
  | none =>
      rw [System.step, System.withRun, hRun] at hGone
      exact absurd hHas hGone
  | some run =>
      rcases run.complete_cases ending system.rows with hSame | hWork
      · rw [System.step, step_of_run hRun, hSame] at hGone
        exact absurd hHas hGone
      · obtain ⟨item, hItem, hPhase, -⟩ := hWork
        refine ⟨index, ending, run, item, rfl, hRun, hItem, hPhase, ?_⟩
        have hTouched := statement_touched hRun hItem
          (show Call.IsStatementOf index (.complete index ending) from rfl)
        exact hTouched.guarded_of_not_mem hRow fun hMem => hGone ⟨row, hMem, rfl⟩

/-! ### All executions after a call -/

/-- Every `runOnce` after a call continues one before the call, or has just claimed. -/
theorem run_after {system : System} {call : Call} {index : Nat} {after : RunOnce}
    (hAfter : (system.step call).runs[index]? = some after) :
    (∃ run, system.runs[index]? = some run ∧ Continues system call index run after) ∨
      (index = system.runs.length ∧ after.phase = .next ∧ after.completed = []) := by
  have hIdle : (system.step call).runs = system.runs →
      ∃ run, system.runs[index]? = some run ∧
        Continues system call index run after := by
    intro hSame
    rw [hSame] at hAfter
    exact ⟨after, hAfter, .idle⟩
  -- A step of one `runOnce` leaves the other ones.
  have hWork : ∀ found work, system.step call = system.withRun found work →
      (∀ run, found = index →
        Continues system call index run (work run system.rows).1) →
      ∃ run, system.runs[index]? = some run ∧
        Continues system call index run after := by
    intro found work hStep hContinues
    cases hRun : system.runs[found]? with
    | none =>
        apply hIdle
        rw [hStep, System.withRun, hRun]
    | some run =>
        rw [hStep, step_of_run hRun] at hAfter
        by_cases hFound : found = index
        · subst hFound
          rw [List.getElem?_set_self (List.getElem?_eq_some_iff.mp hRun).1,
            Option.some.injEq] at hAfter
          subst hAfter
          exact ⟨run, hRun, hContinues run rfl⟩
        · rw [List.getElem?_set_ne hFound] at hAfter
          exact ⟨after, hAfter, .idle⟩
  cases call with
  | enqueue event id now =>
      exact .inl (hIdle (runs_withUuid system id _))
  | freeze key observedDigest id now =>
      exact .inl (hIdle (runs_withUuid system id _))
  | replace key => exact .inl (hIdle rfl)
  | claim limit locked clock =>
      change (system.claim limit locked clock).runs[index]? = _ at hAfter
      rcases runs_claim system limit locked clock with hSame | ⟨claimed, hNew⟩
      · exact .inl (hIdle hSame)
      · rw [hNew] at hAfter
        rcases getElem?_concat_eq_some hAfter with hOld | ⟨hIndex, rfl⟩
        · exact .inl ⟨after, hOld, .idle⟩
        · exact .inr ⟨hIndex, rfl, rfl⟩
  | deliver found outcome =>
      refine .inl (hWork found (fun run rows => (run.deliver outcome, rows)) rfl ?_)
      rintro run rfl
      exact .deliver outcome rfl
  | complete found ending =>
      refine .inl (hWork found (fun run => run.complete ending) rfl ?_)
      rintro run rfl
      exact .complete ending rfl
  | reschedule found now ending =>
      refine .inl (hWork found (fun run => run.reschedule now ending) rfl ?_)
      rintro run rfl
      exact .reschedule now ending rfl

/-- This `runOnce` has delivered the item that it is at. -/
def Delivered (index : Nat) (item : ClaimedOutboxRow) (system : System) : Prop :=
  ∃ run, system.runs[index]? = some run ∧ run.current? = some item ∧
    run.phase = .delivered

/-- A delivered item was delivered by a call of the run. -/
theorem occurs_delivery {calls : List Call} {index : Nat}
    {item : ClaimedOutboxRow}
    (h : Delivered index item (Foundation.run System.step .empty calls)) :
    Occurs System.step .empty calls fun before call =>
      call = .deliver index (.ok ()) ∧
        ∃ working, before.runs[index]? = some working ∧
          working.current? = some item := by
  have hNone : ¬ Delivered index item System.empty := by
    rintro ⟨_, hNone, -⟩
    cases hNone
  obtain ⟨earlier, call, later, hCalls, hBefore, after, hAfter, hCurrent, hDone⟩ :=
    occurs_turn hNone h
  refine ⟨earlier, call, later, hCalls, ?_⟩
  rcases run_after hAfter with ⟨working, hWorking, hContinues⟩ | ⟨-, hNext, -⟩
  · rcases hContinues.deliver_of_delivered hDone with ⟨hOld, hSame⟩ | ⟨hCall, hSame⟩
    · exact absurd ⟨working, hWorking, hSame ▸ hCurrent, hOld⟩ hBefore
    · exact ⟨hCall, working, hWorking, hSame ▸ hCurrent⟩
  · rw [hDone] at hNext
    cases hNext

/-! ### Completed identifiers in every run -/

/-- No call brings back a row whose identifier was drawn before. -/
theorem has_of_has_step {system : System} {call : Call} {id : String}
    (hDrawn : id ∈ system.drawn) (h : Has id (system.step call).rows) :
    Has id system.rows := by
  obtain ⟨row, hRow, rfl⟩ := h
  cases step_effect system call with
  | kept hRows hHistory hKept =>
      obtain ⟨old, hOld, hSame, -⟩ := hRows.same row hRow
      exact ⟨old, hOld, (congrArg ClaimedOutboxRow.id hSame).symm⟩
  | inserted event fresh now hFresh hDistinct hRows hHistory hNew =>
      rw [hRows, List.mem_append, List.mem_singleton] at hRow
      rcases hRow with hOld | rfl
      · exact ⟨row, hOld, rfl⟩
      · exact absurd hDrawn hFresh
  | claimed chosen clock hPresent hChosen hRows hHistory hSame =>
      rw [hRows] at hRow
      obtain ⟨old, hOld, rfl⟩ := List.mem_map.mp hRow
      refine ⟨old, hOld, ?_⟩
      split <;> rfl

theorem drawn_step (system : System) (call : Call) :
    system.drawn ⊆ (system.step call).drawn := by
  cases step_effect system call with
  | kept hRows hHistory hDrawn => exact hDrawn
  | inserted event id now hFresh hDistinct hRows hHistory hDrawn =>
      rw [hDrawn]
      exact List.subset_cons_self _ _
  | claimed chosen clock hPresent hChosen hRows hHistory hDrawn =>
      rw [hDrawn]
      exact List.Subset.refl _

/-- A call completes nothing, or the item of one `runOnce`, whose row it deletes. -/
theorem completed_after {system : System} (h : Sound system) {call : Call}
    {index : Nat} {after : RunOnce}
    (hAfter : (system.step call).runs[index]? = some after) :
    after.completed = [] ∨ ∃ run, system.runs[index]? = some run ∧
      (after.completed = run.completed ∨ ∃ ending, ∃ item : ClaimedOutboxRow,
        call = .complete index ending ∧
        after.completed = run.completed ++ [item.id] ∧
        item.id ∈ system.drawn ∧ Has item.id system.rows ∧
        ¬ Has item.id (system.step call).rows) := by
  rcases run_after hAfter with ⟨run, hRun, hContinues⟩ | ⟨-, -, hNone⟩
  · refine .inr ⟨run, hRun, ?_⟩
    cases hContinues with
    | idle => exact .inl rfl
    | deliver outcome hCall =>
        refine .inl ?_
        rcases run.deliver_cases outcome with hSame | ⟨_, -, -, hEnd⟩
        · rw [hSame]
        · rcases hEnd with ⟨_, hEnd⟩ | ⟨-, hEnd⟩ | ⟨_, hEnd⟩ <;> rw [hEnd]
    | complete ending hCall =>
        rcases run.complete_cases ending system.rows with hSame | hWork
        · exact .inl (by rw [hSame])
        · obtain ⟨item, hItem, -, hEnd⟩ := hWork
          rcases hEnd with hEnd | ⟨_, hEnd | hEnd⟩
          · by_cases hOne : (deleteClaimed item system.rows).1.length = 1
            · obtain ⟨hHas, hGone⟩ := not_has_deleteClaimed h.keyed hOne
              refine .inr ⟨ending, item, hCall, ?_, ?_, hHas, ?_⟩
              · rw [hEnd]
                exact if_pos hOne
              · exact h.drawnItems _ (mem_history hRun) item
                  (mem_claimed_of_current hItem)
              · rw [hCall, System.step, step_of_run hRun, hEnd]
                exact hGone
            · refine .inl ?_
              rw [hEnd]
              exact if_neg hOne
          · exact .inl (by rw [hEnd])
          · exact .inl (by rw [hEnd])
    | reschedule now ending hCall =>
        refine .inl ?_
        rcases run.reschedule_cases now ending system.rows with hSame | hWork
        · rw [hSame]
        · obtain ⟨item, delay, -, -, hEnd⟩ := hWork
          rcases hEnd with ⟨_, hEnd⟩ | ⟨_, -, hEnd | ⟨_, hEnd⟩⟩
          · rw [hEnd]
          · rw [hEnd]
            rfl
          · rw [hEnd]
  · exact .inl hNone

theorem Completed.step {system : System} (h : Completed system) (hSound : Sound system)
    (call : Call) : Completed (system.step call) := by
  -- A completed identifier was completed before, or is completed now.
  have hOrigin : ∀ {index : Nat} {after : RunOnce} {id : String},
      (system.step call).runs[index]? = some after →
      id ∈ after.completed → (∃ run, system.runs[index]? = some run ∧
        id ∈ run.completed) ∨ (Has id system.rows ∧ id ∈ system.drawn ∧
          ¬ Has id (system.step call).rows ∧
          ∃ ending, call = .complete index ending) := by
    intro index after id hAfter hId
    rcases completed_after hSound hAfter with hNone | ⟨run, hRun, hSame | hNew⟩
    · rw [hNone] at hId
      cases hId
    · exact .inl ⟨run, hRun, hSame ▸ hId⟩
    · obtain ⟨ending, item, hCall, hCompleted, hDrawn, hHas, hGone⟩ := hNew
      rw [hCompleted, List.mem_append, List.mem_singleton] at hId
      rcases hId with hOld | rfl
      · exact .inl ⟨run, hRun, hOld⟩
      · exact .inr ⟨hHas, hDrawn, hGone, ending, hCall⟩
  refine ⟨?_, ?_, ?_⟩
  · intro index after id hAfter hId
    rcases hOrigin hAfter hId with ⟨run, hRun, hOld⟩ | ⟨-, hDrawn, hGone, -⟩
    · obtain ⟨hDrawn, hGone⟩ := h.gone hRun hOld
      exact ⟨drawn_step system call hDrawn,
        fun hHas => hGone (has_of_has_step hDrawn hHas)⟩
    · exact ⟨drawn_step system call hDrawn, hGone⟩
  · intro first second run other id hRun hOther hId hOtherId
    rcases hOrigin hRun hId with ⟨old, hOld, hFirst⟩ | ⟨hHas, -, -, ending, hCall⟩
    · rcases hOrigin hOther hOtherId with ⟨old', hOld', hSecond⟩ | ⟨hHas, -⟩
      · exact h.once hOld hOld' hFirst hSecond
      · exact absurd hHas (h.gone hOld hFirst).2
    · rcases hOrigin hOther hOtherId with ⟨old', hOld', hSecond⟩ | hNow
      · exact absurd hHas (h.gone hOld' hSecond).2
      · obtain ⟨-, -, -, ending', hCall'⟩ := hNow
        rw [hCall] at hCall'
        cases hCall'
        rfl
  · intro index after hAfter
    rcases completed_after hSound hAfter with hNone | ⟨run, hRun, hSame | hNew⟩
    · rw [hNone]
      exact List.nodup_nil
    · rw [hSame]
      exact h.nodup hRun
    · obtain ⟨ending, item, -, hCompleted, -, hHas, -⟩ := hNew
      rw [hCompleted, List.nodup_append]
      refine ⟨h.nodup hRun, List.nodup_singleton _, ?_⟩
      rintro id hOld _ hLast rfl
      rw [List.mem_singleton] at hLast
      exact (h.gone hRun hOld).2 (hLast ▸ hHas)

theorem Completed.run (calls : List Call) :
    Completed (Foundation.run System.step .empty calls) := by
  have hStep : ∀ (system : System) (call : Call), Sound system ∧ Completed system →
      Sound (system.step call) ∧ Completed (system.step call) := by
    rintro system call ⟨hSound, hCompleted⟩
    exact ⟨hSound.step call, hCompleted.step hSound call⟩
  exact (run_invariant ⟨Sound.empty, Completed.empty⟩ hStep calls).2

end Outbox
end Hosted
end RootPermit
