import RootPermit.Hosted.OutboxWorkers

/-!
# The lease protocol of the outbox

* `Spent.step`, `VisibleAt.step` — a rescheduled row keeps its new time until it is
  claimed again, unless its request is frozen;
* `lease_protocol` — for all runs of workers and repository, at any times.
-/

namespace RootPermit
namespace Hosted
namespace Outbox

open Foundation

/-! ### Rescheduled rows -/

/-- No worker that could still change the row holds its latest claim: what is left to do
of each claim of the row is rejected or superseded. -/
def Spent (id : String) (system : System) : Prop :=
  ∀ (index : Nat) (run : RunOnce) (position : Nat) (item : ClaimedOutboxRow),
    system.runs[index]? = some run → run.position ≤ position →
    run.claimed[position]? = some item → item.id = id →
    (∃ message, run.phase = .rejected message) ∨ Superseded system index id

/-- The row with this identifier becomes visible at this time. -/
def VisibleAt (id : String) (time : Int) (rows : List Row) : Prop :=
  ∀ row ∈ rows, row.id = id → row.visibleAfter = time

/-- No `runOnce` from this one on has claimed the row. -/
def UnclaimedSince (start : Nat) (id : String) (system : System) : Prop :=
  ∀ index run, start ≤ index → system.runs[index]? = some run → ¬ Claims id run.claimed

/-- The call does not freeze the request that the item is about. -/
def Spares (item : ClaimedOutboxRow) (call : Call) : Prop :=
  ∀ key observedDigest id now, call = .freeze key observedDigest id now →
    ¬ (item.tenantId = key.tenantId ∧ item.relationType = "request_envelope" ∧
      item.relationId = key.requestEnvelopeId)

namespace VisibleAt

variable {id : String} {time : Int} {rows : List Row}

theorem filter (h : VisibleAt id time rows) (condition : Row → Bool) :
    VisibleAt id time (rows.filter condition) :=
  fun row hRow hId => h row (List.mem_of_mem_filter hRow) hId

theorem append (h : VisibleAt id time rows) {row : Row} (hOther : row.id ≠ id) :
    VisibleAt id time (rows ++ [row]) := by
  intro found hFound hId
  rcases List.mem_append.mp hFound with hOld | hNew
  · exact h found hOld hId
  · rw [List.mem_singleton] at hNew
    exact absurd (hNew ▸ hId) hOther

/-- An update may change the times of other rows. -/
theorem update (h : VisibleAt id time rows) {condition : Row → Bool}
    {change : Row → Row} (hChange : ∀ row, (change row).id = row.id)
    (hKept : ∀ row ∈ rows, row.id = id → condition row = true →
      (change row).visibleAfter = row.visibleAfter) :
    VisibleAt id time (Table.update condition change rows) := by
  intro found hFound hId
  obtain ⟨row, hRow, rfl⟩ := List.mem_map.mp hFound
  by_cases hCondition : condition row = true
  · rw [if_pos hCondition] at hId ⊢
    have hRowId : row.id = id := (hChange row).symm.trans hId
    rw [hKept row hRow hRowId hCondition]
    exact h row hRow hRowId
  · rw [if_neg hCondition] at hId ⊢
    exact h row hRow hId

end VisibleAt

/-- The worker with the latest claim of a row gives it its new time. -/
theorem visibleAt_of_postponed {system : System} {index : Nat} {run : RunOnce}
    {item : ClaimedOutboxRow} (h : Sound system)
    (hRun : system.runs[index]? = some run) (hMem : item ∈ run.claimed)
    (hCurrent : ¬ Superseded system index item.id) (now delay : Int) :
    VisibleAt item.id (now + delay * 1000)
      (Table.update (fun row => decide (Guarded item.tenantId item row))
        (postpone now delay) system.rows) := by
  intro row hRow hId
  obtain ⟨old, hOld, rfl⟩ := List.mem_map.mp hRow
  by_cases hGuarded : Guarded item.tenantId item old
  · rw [if_pos (decide_eq_true hGuarded)]
    exact visibleAfter_release _ _
  · rw [if_neg (by simpa using hGuarded)] at hId
    exact absurd ((guarded_iff h hRun hMem hOld).mpr ⟨hId, hCurrent⟩) hGuarded

/-! ### What a step keeps -/

variable [Cryptography]

theorem history_step (system : System) (call : Call) :
    system.history <+: (system.step call).history := by
  cases step_effect system call with
  | kept hRows hHistory hDrawn => rw [hHistory]
  | inserted event id now hFresh hDistinct hRows hHistory hDrawn => rw [hHistory]
  | claimed chosen clock hPresent hChosen hRows hHistory hDrawn =>
      rw [hHistory]
      exact List.prefix_append _ _

/-- A `runOnce` and its claim stay. -/
theorem runs_step {system : System} {index : Nat} {run : RunOnce}
    (hRun : system.runs[index]? = some run) (call : Call) :
    ∃ after, (system.step call).runs[index]? = some after ∧
      after.claimed = run.claimed := by
  have hClaimed := getElem?_history hRun
  obtain ⟨rest, hRest⟩ := history_step system call
  have hBounds := (List.getElem?_eq_some_iff.mp hClaimed).1
  rw [← List.getElem?_append_left hBounds, hRest, System.history, List.getElem?_map,
    Option.map_eq_some_iff] at hClaimed
  exact hClaimed

theorem Superseded.step {system : System} {index : Nat} {id : String}
    (h : Superseded system index id) (call : Call) :
    Superseded (system.step call) index id := by
  obtain ⟨later, run, hLater, hRun, hClaims⟩ := h
  obtain ⟨after, hAfter, hSame⟩ := runs_step hRun call
  exact ⟨later, after, hLater, hAfter, hSame ▸ hClaims⟩

theorem UnclaimedSince.before {system : System} {start : Nat} {id : String}
    {call : Call} (h : UnclaimedSince start id (system.step call)) :
    UnclaimedSince start id system := by
  intro index run hStart hRun hClaims
  obtain ⟨after, hAfter, hSame⟩ := runs_step hRun call
  exact h index after hStart hAfter (hSame.symm ▸ hClaims)

theorem Spent.step {system : System} {start : Nat} {id : String} {call : Call}
    (h : Spent id system) (hStart : start ≤ system.runs.length)
    (hUnclaimed : UnclaimedSince start id (system.step call)) :
    Spent id (system.step call) := by
  intro index after position item hAfter hPosition hItem hId
  rcases run_after hAfter with ⟨run, hRun, hContinues⟩ | ⟨hIndex, -⟩
  · obtain ⟨hForward, hRejected⟩ := hContinues.position_le
    rw [hContinues.claimed_eq] at hItem
    rcases h index run position item hRun (hForward.trans hPosition) hItem hId
      with ⟨message, hPhase⟩ | hLater
    · rw [hRejected message hPhase]
      exact .inl ⟨message, hPhase⟩
    · exact .inr (hLater.step call)
  · -- A new claim of the row is excluded.
    refine absurd ?_ (hUnclaimed index after (by omega) hAfter)
    exact List.mem_map.mpr ⟨item, List.mem_of_getElem? hItem, hId⟩

/-- The time of a row changes only with a freeze, or by a worker with its latest
claim. -/
theorem VisibleAt.step {system : System} (hSound : Sound system)
    {item : ClaimedOutboxRow} {time : Int}
    (hItem : ∃ claimed ∈ system.history, item ∈ claimed)
    (h : VisibleAt item.id time system.rows) (hSpent : Spent item.id system)
    {call : Call} (hSpares : Spares item call) :
    VisibleAt item.id time (system.step call).rows := by
  obtain ⟨claimed, hClaimed, hMem⟩ := hItem
  have hOther : ∀ {event id now}, id ∉ system.drawn →
      (newRow event id now).id ≠ item.id := by
    rintro event id now hFresh rfl
    exact hFresh (hSound.drawnItems claimed hClaimed item hMem)
  cases call with
  | enqueue event id now =>
      refine rows_withUuid h fun rows hFresh hRows => ?_
      rw [(insert_eq_ok hRows).1]
      exact h.append (hOther hFresh)
  | freeze key observedDigest id now =>
      refine rows_withUuid h fun rows hFresh hRows => ?_
      rcases queueResync_eq_ok hRows with ⟨-, rfl⟩ | ⟨-, hInserted⟩
      · refine h.update (fun row => ?_) fun row hRow hId hAsks => ?_
        · exact congrArg ClaimedOutboxRow.id (claimed_release _ _)
        · rw [decide_eq_true_eq] at hAsks
          have hOrigin := hSound.origin claimed hClaimed item hMem row hRow hId
          refine absurd ⟨?_, ?_, ?_⟩ (hSpares key observedDigest id now rfl)
          · exact (congrArg ClaimedOutboxRow.tenantId hOrigin).symm.trans hAsks.1
          · exact (congrArg ClaimedOutboxRow.relationType hOrigin).symm.trans hAsks.2.1
          · exact (congrArg ClaimedOutboxRow.relationId hOrigin).symm.trans hAsks.2.2.1
      · rw [(insert_eq_ok hInserted).1]
        exact h.append (hOther hFresh)
  | replace key => exact h.filter _
  | claim limit locked clock =>
      exact rows_claim h fun chosen => h.update (fun _ => rfl) fun _ _ _ _ => rfl
  | deliver index outcome => exact rows_withRun h fun _ _ => h
  | complete index ending =>
      refine rows_withRun h fun run _ => ?_
      rcases run.complete_rows ending system.rows with hSame | ⟨found, -, -, hDeleted⟩
      · rw [hSame]
        exact h
      · rw [hDeleted]
        exact h.filter _
  | reschedule index now ending =>
      refine rows_withRun h fun run hRun => ?_
      rcases run.reschedule_rows now ending system.rows with hSame | hWork
      · rw [hSame]
        exact h
      · obtain ⟨found, delay, hFound, hPhase, hPostponed⟩ := hWork
        rw [hPostponed]
        refine h.update (fun row => ?_) fun row hRow hId hGuarded => ?_
        · exact congrArg ClaimedOutboxRow.id (claimed_postpone _ _ row)
        · -- The worker would hold the latest claim of the row.
          rw [decide_eq_true_eq, guarded_iff hSound hRun (mem_claimed_of_current hFound)
            hRow] at hGuarded
          have hSame : found.id = item.id := hGuarded.1.symm.trans hId
          rcases hSpent index run run.position found hRun (Nat.le_refl _) hFound hSame
            with ⟨message, hRejected⟩ | hLater
          · rw [hPhase] at hRejected
            cases hRejected
          · exact absurd (hSame ▸ hLater) hGuarded.2

/-! ### The protocol -/

/-- What is left to do of a rescheduled row after its rescheduling. -/
structure Rescheduled (start : Nat) (item : ClaimedOutboxRow) (time : Int)
    (system : System) : Prop where
  sound : Sound system
  started : start ≤ system.runs.length
  origin : ∃ claimed ∈ system.history, item ∈ claimed
  kept : UnclaimedSince start item.id system →
    Spent item.id system ∧ VisibleAt item.id time system.rows

theorem Rescheduled.step {start : Nat} {item : ClaimedOutboxRow} {time : Int}
    {system : System} (h : Rescheduled start item time system) {call : Call}
    (hSpares : Spares item call) : Rescheduled start item time (system.step call) := by
  have hHistory := history_step system call
  refine ⟨h.sound.step call, ?_, ?_, fun hUnclaimed => ?_⟩
  · have hLength := hHistory.length_le
    rw [System.history, System.history, List.length_map, List.length_map] at hLength
    exact h.started.trans hLength
  · obtain ⟨claimed, hClaimed, hItem⟩ := h.origin
    exact ⟨claimed, hHistory.subset hClaimed, hItem⟩
  · obtain ⟨hSpent, hVisible⟩ := h.kept hUnclaimed.before
    exact ⟨hSpent.step h.started hUnclaimed,
      hVisible.step h.sound h.origin hSpent hSpares⟩

section Rescheduling

variable {system : System} {index : Nat} {run : RunOnce} {item : ClaimedOutboxRow}

/-- A worker that has rescheduled its row is done with it, and so are the workers that
claimed the row before. -/
theorem spent_of_rescheduled (h : Sound system) {now : Int}
    {ending : RunOnce.TransactionEnd} (hRun : system.runs[index]? = some run)
    (hItem : run.current? = some item) (hCurrent : ¬ Superseded system index item.id)
    (hChanged : (run.reschedule now ending system.rows).2 ≠ system.rows) :
    Spent item.id (system.step (.reschedule index now ending)) := by
  intro other after position found hAfter hPosition hFound hId
  have hRuns : (system.step (.reschedule index now ending)).runs =
      system.runs.set index (run.reschedule now ending system.rows).1 := by
    rw [System.step, step_of_run hRun]
  rw [hRuns] at hAfter
  by_cases hOther : other = index
  · subst hOther
    rw [List.getElem?_set_self (List.getElem?_eq_some_iff.mp hRun).1,
      Option.some.injEq] at hAfter
    subst hAfter
    rcases RunOnce.reschedule_done hChanged with hAdvanced | hRejected
    · rw [hAdvanced] at hPosition hFound
      have hEqual := h.position_eq hRun hItem hFound hId.symm
      have hAhead : run.position + 1 ≤ position := hPosition
      omega
    · exact .inl hRejected
  · rw [List.getElem?_set_ne fun hSame => hOther hSame.symm] at hAfter
    rcases Nat.lt_or_ge other index with hBefore | hAfterwards
    · refine .inr (Superseded.step ?_ _)
      exact ⟨index, run, hBefore, hRun,
        List.mem_map_of_mem (mem_claimed_of_current hItem)⟩
    · have hClaims : Claims item.id after.claimed :=
        List.mem_map.mpr ⟨found, List.mem_of_getElem? hFound, hId⟩
      exact absurd ⟨other, after, by omega, hAfter, hClaims⟩ hCurrent

/-- A rescheduling that changes the table gives the row its new time, and the worker is
done with the row. -/
theorem rescheduled_of_changed (h : Sound system) {delay now : Int}
    {ending : RunOnce.TransactionEnd} (hRun : system.runs[index]? = some run)
    (hItem : run.current? = some item) (hPhase : run.phase = .failed delay)
    (hChanged : (system.step (.reschedule index now ending)).rows ≠ system.rows) :
    Rescheduled system.runs.length item (now + delay * 1000)
      (system.step (.reschedule index now ending)) := by
  have hMem := mem_claimed_of_current hItem
  have hCurrent : ¬ Superseded system index item.id := by
    intro hLater
    exact hChanged (statement_of_superseded h hRun hItem
      (show Call.IsStatementOf index (.reschedule index now ending) from rfl) hLater)
  have hHistory := history_step system (.reschedule index now ending)
  have hRows : (system.step (.reschedule index now ending)).rows =
      (run.reschedule now ending system.rows).2 := by
    rw [System.step, step_of_run hRun]
  rw [hRows] at hChanged
  refine ⟨h.step _, ?_, ?_, fun _ => ⟨?_, ?_⟩⟩
  · rw [System.step, step_of_run hRun, List.length_set]
  · exact ⟨run.claimed, hHistory.subset (mem_history hRun), hMem⟩
  · exact spent_of_rescheduled h hRun hItem hCurrent hChanged
  · rw [hRows]
    rcases run.reschedule_rows now ending system.rows with hSame | hWork
    · exact absurd hSame hChanged
    · obtain ⟨found, _, hFound, hFailed, hPostponed⟩ := hWork
      rw [hItem, Option.some.injEq] at hFound
      subst hFound
      rw [hPhase, Phase.failed.injEq] at hFailed
      subst hFailed
      rw [hPostponed]
      exact visibleAt_of_postponed h hRun hMem hCurrent now delay

end Rescheduling

/-- In every run of workers, repository and clock:

* the statements of a worker change only the row of the item at which it is, a row of
  the tenant and relation of that item, and only as long as no later claim of the row
  has happened, which is as long as the generation of the row is the one of the item;
* besides the clearing of a resync request, a row goes only when the worker with its
  latest claim completes it, and that worker has delivered it;
* no identifier is completed by two executions of `runOnce`, or twice by one;
* from a rescheduling that took effect up to the next claim of the row, and unless its
  request is frozen meanwhile, the row is not claimed before its new time. -/
theorem lease_protocol (calls : List Call) :
    let system := run System.step .empty calls
    (∀ (index : Nat) (run : RunOnce) (item : ClaimedOutboxRow) (call : Call),
      system.runs[index]? = some run → run.current? = some item →
      call.IsStatementOf index →
      (∀ row ∈ system.rows, row.id = item.id → row.tenantId = item.tenantId ∧
        row.relationType = item.relationType ∧ row.relationId = item.relationId ∧
        row.eventType = item.eventType ∧ row.payloadDigest = item.payloadDigest ∧
        (row.leaseGeneration = item.leaseGeneration ↔
          ¬ Superseded system index item.id)) ∧
      (Superseded system index item.id → (system.step call).rows = system.rows) ∧
      (∀ row ∈ system.rows, row ∉ (system.step call).rows → row.id = item.id) ∧
      ((system.step call).rows.filter fun row => decide (row.id ≠ item.id)) =
        system.rows.filter fun row => decide (row.id ≠ item.id)) ∧
    (∀ (call : Call) (row : Row), row ∈ system.rows →
      ¬ Has row.id (system.step call).rows → (∀ key, call ≠ .replace key) →
      ∃ index ending, ∃ item : ClaimedOutboxRow, call = .complete index ending ∧
        item.id = row.id ∧ item.leaseGeneration = row.leaseGeneration ∧
        ¬ Superseded system index row.id ∧
        Occurs System.step .empty calls fun before call =>
          call = .deliver index (.ok ()) ∧ ∃ working,
            before.runs[index]? = some working ∧ working.current? = some item) ∧
    ((∀ (first second : Nat) (run other : RunOnce) (id : String),
        system.runs[first]? = some run → system.runs[second]? = some other →
        id ∈ run.completed → id ∈ other.completed → first = second) ∧
      ∀ run ∈ system.runs, run.completed.Nodup) ∧
    ∀ (earlier between : List Call) (index : Nat) (run : RunOnce)
      (item : ClaimedOutboxRow) (now delay : Int) (ending : RunOnce.TransactionEnd),
      let before := Foundation.run System.step .empty earlier
      calls = earlier ++ .reschedule index now ending :: between →
      before.runs[index]? = some run → run.current? = some item →
      run.phase = .failed delay →
      (before.step (.reschedule index now ending)).rows ≠ before.rows →
      (∀ call ∈ between, Spares item call) →
      UnclaimedSince before.runs.length item.id system →
      ∀ (limit : Int) (locked : List String) (clock : ClockReadings)
        (claimed : List ClaimedOutboxRow) (rows : List Row),
        claimOutbox limit locked clock system.rows = .ok (claimed, rows) →
        Claims item.id claimed → now + delay * 1000 ≤ clock.visible item.id := by
  intro system
  have hSound : Sound system := Sound.run calls
  refine ⟨?_, ?_, ⟨?_, ?_⟩, ?_⟩
  -- A statement of a worker reaches its own row alone, at the generation of its claim.
  · intro index run item call hRun hItem hCall
    have hMem := mem_claimed_of_current hItem
    have hTouched := statement_touched hRun hItem hCall
    refine ⟨?_, statement_of_superseded hSound hRun hItem hCall, ?_,
      hTouched.filter_other⟩
    · intro row hRow hId
      have hOrigin := hSound.origin _ (mem_history hRun) item hMem row hRow hId
      exact ⟨congrArg ClaimedOutboxRow.tenantId hOrigin,
        congrArg ClaimedOutboxRow.relationType hOrigin,
        congrArg ClaimedOutboxRow.relationId hOrigin,
        congrArg ClaimedOutboxRow.eventType hOrigin,
        congrArg ClaimedOutboxRow.payloadDigest hOrigin,
        generation_eq_iff hSound hRun hMem hRow hId⟩
    · intro row hRow hGone
      exact (hTouched.guarded_of_not_mem hRow hGone).2.1
  -- Only the end of a delivery that still holds the lease deletes a row.
  · intro call row hRow hGone hWorker
    obtain ⟨index, ending, run, item, hCall, hRun, hItem, hPhase, hGuarded⟩ :=
      complete_of_gone hRow hGone hWorker
    have hCurrent :=
      (guarded_iff hSound hRun (mem_claimed_of_current hItem) hRow).mp hGuarded
    obtain ⟨-, -, -, -, -, hGeneration⟩ := hGuarded
    refine ⟨index, ending, item, hCall, hCurrent.1.symm, hGeneration.symm, ?_, ?_⟩
    · rw [hCurrent.1]
      exact hCurrent.2
    · exact occurs_delivery ⟨run, hRun, hItem, hPhase⟩
  · intro first second run other id hRun hOther hId hOtherId
    exact (Completed.run calls).once hRun hOther hId hOtherId
  · intro run hRun
    obtain ⟨index, hIndex⟩ := List.mem_iff_getElem?.mp hRun
    exact (Completed.run calls).nodup hIndex
  · intro earlier between index run item now delay ending before hCalls hRun hItem
      hPhase hChanged hSpares hUnclaimed limit locked clock claimed rows hClaim hClaims
    -- The postponed row keeps its time through the calls that spare it.
    have hEnd : Rescheduled before.runs.length item (now + delay * 1000) system := by
      have hSystem : system = Foundation.run System.step
          (before.step (.reschedule index now ending)) between := by
        show Foundation.run System.step .empty calls = _
        rw [hCalls, run_append, run_cons]
      rw [hSystem]
      exact run_invariant_of_throughout
        (rescheduled_of_changed (Sound.run earlier) hRun hItem hPhase hChanged)
        (fun _ _ hState hCall => hState.step hCall)
        (Throughout.of_mem fun call hCall _ => hSpares call hCall)
    obtain ⟨rfl, -⟩ := claimOutbox_eq_ok hClaim
    obtain ⟨_, hLeased, hId⟩ := List.mem_map.mp hClaims
    obtain ⟨row, hRow, rfl⟩ := List.mem_map.mp hLeased
    obtain ⟨hPresent, hVisible, -⟩ := mem_candidates hRow
    have hRowId : row.id = item.id := hId
    rw [← (hEnd.kept hUnclaimed).2 row hPresent hRowId, ← hRowId]
    exact hVisible

end Outbox
end Hosted
end RootPermit
