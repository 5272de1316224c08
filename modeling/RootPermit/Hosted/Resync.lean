import RootPermit.Foundation.Sha256
import RootPermit.Hosted.OutboxProtocol

/-!
# Resync requests in the outbox

A lifecycle event that does not fit its projection freezes the request and queues a
resync request.  Of one request there is at most one such row: a further freeze makes
the row of an earlier one visible again, without advancing its generation.  A worker
that had claimed the row before the freeze can therefore still complete it.

* `queueResync_refines` — the row that a freeze queues is the one of the repository;
* `pending_freeze` — after a freeze there is a resync request;
* `noResyncLost_iff` — a run loses no resync request exactly when every worker that is
  about to delete one, and that claimed it before a freeze, has been superseded;
* `resync_lost` — a run that loses one.
-/

namespace RootPermit
namespace Hosted
namespace Outbox

open Foundation

/-- There is a resync request for this request. -/
def Pending (key : RequestKey) (rows : List Row) : Prop :=
  ∃ row ∈ rows, row.AsksResync key

instance (key : RequestKey) (rows : List Row) : Decidable (Pending key rows) :=
  inferInstanceAs (Decidable (∃ row ∈ rows, row.AsksResync key))

/-! ### Rows keep what they ask for -/

theorem asksResync_iff {new old : Row} (hClaimed : new.claimed = old.claimed)
    (hDedupe : new.dedupeKey = old.dedupeKey) (key : RequestKey) :
    new.AsksResync key ↔ old.AsksResync key := by
  have hTenant : new.tenantId = old.tenantId :=
    congrArg ClaimedOutboxRow.tenantId hClaimed
  have hType : new.relationType = old.relationType :=
    congrArg ClaimedOutboxRow.relationType hClaimed
  have hRelation : new.relationId = old.relationId :=
    congrArg ClaimedOutboxRow.relationId hClaimed
  unfold OutboxRow.AsksResync
  rw [hTenant, hType, hRelation, hDedupe]

/-- Two rows that ask for the same resync have the same deduplication key. -/
theorem conflicts_of_asksResync {event other : OutboxRow} {key : RequestKey}
    (hEvent : event.AsksResync key) (hOther : other.AsksResync key) :
    Conflicts event other := by
  obtain ⟨hTenant, hType, hRelation, hDedupe⟩ := hEvent
  obtain ⟨hTenant', hType', hRelation', hDedupe'⟩ := hOther
  refine ⟨?_, hTenant.trans hTenant'.symm, hType.trans hType'.symm,
    hRelation.trans hRelation'.symm, hDedupe.trans hDedupe'.symm⟩
  rw [hDedupe]
  rfl

/-- A completion that changes the table deletes the row of the delivered item. -/
theorem complete_of_delivered {run : RunOnce} {item : ClaimedOutboxRow}
    {ending : RunOnce.TransactionEnd} {rows : List Row}
    (hItem : run.current? = some item) (hPhase : run.phase = .delivered)
    (hEnding : ∀ thrown, ending ≠ .rolledBack thrown) :
    (run.complete ending rows).2 = (deleteClaimed item rows).2 := by
  rw [RunOnce.complete, hPhase, hItem]
  cases ending with
  | committed => rfl
  | rolledBack thrown => exact absurd rfl (hEnding thrown)
  | unanswered thrown => rfl

section Runs

variable [Cryptography]

/-- A row after a call was there before it and asked for the same, or is new, and then
no other row asks for what it asks for. -/
theorem row_origin {system : System} {call : Call} {row : Row}
    (hRow : row ∈ (system.step call).rows) :
    (∃ old ∈ system.rows, row.id = old.id ∧
      ∀ key, row.AsksResync key ↔ old.AsksResync key) ∨
    (row.id ∉ system.drawn ∧ ∀ old ∈ (system.step call).rows, ∀ key,
      row.AsksResync key → old.AsksResync key → old = row) := by
  cases step_effect system call with
  | kept hRows hHistory hDrawn =>
      obtain ⟨old, hOld, hClaimed, hDedupe⟩ := hRows.same row hRow
      exact .inl ⟨old, hOld, congrArg ClaimedOutboxRow.id hClaimed,
        asksResync_iff hClaimed hDedupe⟩
  | inserted event id now hFresh hDistinct hRows hHistory hDrawn =>
      rw [hRows] at hRow ⊢
      rw [List.mem_append, List.mem_singleton] at hRow
      rcases hRow with hOld | rfl
      · exact .inl ⟨row, hOld, rfl, fun _ => Iff.rfl⟩
      · refine .inr ⟨hFresh, ?_⟩
        intro old hOld key hNew hAsks
        rw [List.mem_append, List.mem_singleton] at hOld
        rcases hOld with hOld | rfl
        · exact absurd (conflicts_of_asksResync hNew hAsks) (hDistinct old hOld)
        · rfl
  | claimed chosen clock hPresent hChosen hRows hHistory hDrawn =>
      rw [hRows] at hRow
      obtain ⟨old, hOld, rfl⟩ := List.mem_map.mp hRow
      refine .inl ⟨old, hOld, ?_, fun key => ?_⟩
      · split <;> rfl
      · split <;> exact Iff.rfl

/-! ### One resync request for each request -/

/-- Of one request there is one resync request at most. -/
def Single (system : System) : Prop :=
  ∀ first ∈ system.rows, ∀ second ∈ system.rows, ∀ key : RequestKey,
    first.AsksResync key → second.AsksResync key → first.id = second.id

theorem Single.step {system : System} (h : Single system) (call : Call) :
    Single (system.step call) := by
  intro first hFirst second hSecond key hAsks hAsks'
  rcases row_origin hFirst with ⟨old, hOld, hId, hSame⟩ | ⟨-, hNew⟩
  · rcases row_origin hSecond with ⟨old', hOld', hId', hSame'⟩ | ⟨-, hNew⟩
    · rw [hId, hId']
      exact h old hOld old' hOld' key ((hSame key).mp hAsks) ((hSame' key).mp hAsks')
    · rw [hNew first hFirst key hAsks' hAsks]
  · rw [hNew second hSecond key hAsks hAsks']

theorem Single.run (calls : List Call) :
    Single (Foundation.run System.step .empty calls) := by
  apply run_invariant
  · intro first hFirst
    cases hFirst
  · intro system call h
    exact h.step call

/-- No row of this identifier asks for the resync. -/
def Absent (key : RequestKey) (id : String) (system : System) : Prop :=
  id ∈ system.drawn ∧ ∀ row ∈ system.rows, row.id = id → ¬ row.AsksResync key

theorem Absent.step {key : RequestKey} {id : String} {system : System}
    (h : Absent key id system) (call : Call) : Absent key id (system.step call) := by
  refine ⟨drawn_step system call h.1, ?_⟩
  rintro row hRow rfl hAsks
  rcases row_origin hRow with ⟨old, hOld, hId, hSame⟩ | ⟨hFresh, -⟩
  · exact h.2 old hOld hId.symm ((hSame key).mp hAsks)
  · exact hFresh h.1

/-! ### Freezing -/

/-- The queued row is the one that the repository writes: on the columns that it
writes, the statement is the one of `freezeAndQueueResync`. -/
theorem queueResync_refines {key : RequestKey} {observedDigest : Bytes} {id : String}
    {now : Int} {rows queued : List Row} {before after : Database}
    (hFreeze : freezeAndQueueResync key observedDigest before = .ok ((), after))
    (hRows : rows.map Row.toOutboxRow = before.outbox)
    (hQueue : queueResync key observedDigest id now rows = .ok queued) :
    queued.map Row.toOutboxRow = after.outbox := by
  unfold freezeAndQueueResync at hFreeze
  obtain ⟨_, middle, hSync, hOutbox⟩ := run_bind_eq_ok_iff.mp hFreeze
  have hMiddle : middle.outbox = before.outbox := by
    unfold upsertSyncState at hSync
    have hTables := execute_eq_ok hSync
    rw [hTables]
  have hAfter := congrArg Tables.outbox (execute_eq_ok hOutbox)
  rw [hAfter]
  show _ = if ∃ row ∈ middle.outbox, row.AsksResync key then middle.outbox
    else middle.outbox ++ [resyncEvent key observedDigest]
  rw [hMiddle, ← hRows]
  have hSame : (∃ row ∈ rows.map Row.toOutboxRow, row.AsksResync key) ↔
      ∃ row ∈ rows, row.AsksResync key := by
    simp
  rcases queueResync_eq_ok hQueue with ⟨hPresent, rfl⟩ | ⟨hAbsent, hInserted⟩
  · rw [if_pos (hSame.mpr hPresent)]
    apply Table.map_update
    intro row
    unfold releaseOutboxLeaseOnReschedule
    split <;> rfl
  · rw [if_neg, (insert_eq_ok hInserted).1, List.map_append]
    · rfl
    · rw [hSame]
      rintro ⟨row, hRow, hAsks⟩
      exact hAbsent row hRow hAsks

/-- After a freeze there is a resync request. -/
theorem pending_freeze {system : System} (h : Sound system) (key : RequestKey)
    (observedDigest : Bytes) {id : String} (now : Int) (hFresh : id ∉ system.drawn) :
    Pending key (system.step (.freeze key observedDigest id now)).rows := by
  show Pending key (system.withUuid id (queueResync key observedDigest id now)).rows
  rw [System.withUuid, if_neg hFresh]
  by_cases hPresent : ∃ row ∈ system.rows, row.AsksResync key
  · rw [queueResync, if_pos hPresent]
    obtain ⟨row, hRow, hAsks⟩ := hPresent
    refine ⟨_, List.mem_map_of_mem hRow, ?_⟩
    rw [if_pos (decide_eq_true hAsks)]
    exact (asksResync_iff (claimed_release _ _) (dedupeKey_release _ _) key).mpr hAsks
  · have hInserted : insert (resyncEvent key observedDigest) id now system.rows =
        .ok (system.rows ++ [newRow (resyncEvent key observedDigest) id now]) := by
      have hLength : (resyncEvent key observedDigest).payloadDigest.length = 32 :=
        (Foundation.sha256 _).property
      have hNone : ¬ ∃ row ∈ system.rows,
          row.id = id ∨ Conflicts (resyncEvent key observedDigest) row.toOutboxRow := by
        rintro ⟨row, hRow, rfl | ⟨-, hTenant, hType, hRelation, hDedupe⟩⟩
        · exact hFresh (h.drawnRows row hRow)
        · exact hPresent ⟨row, hRow, hTenant.symm, hType.symm, hRelation.symm,
            hDedupe.symm⟩
      simp [insert, rejectIf, hLength, hNone]
    rw [queueResync, if_neg hPresent, hInserted]
    exact ⟨_, List.mem_append_right _ (List.mem_singleton_self _), rfl, rfl, rfl, rfl⟩

/-! ### Requests that go -/

/-- The resync request that a call makes go is cleared, or a worker that was not
superseded completes it. -/
theorem cleared_or_completed {system : System} (h : Sound system) {key : RequestKey}
    {call : Call} (hPending : Pending key system.rows)
    (hGone : ¬ Pending key (system.step call).rows) :
    call = .replace key ∨ ∃ index ending run item, ∃ row ∈ system.rows,
      call = .complete index ending ∧ system.runs[index]? = some run ∧
      run.current? = some item ∧ run.phase = .delivered ∧
      (∀ thrown, ending ≠ .rolledBack thrown) ∧ row.AsksResync key ∧
      row.id = item.id ∧ ¬ Superseded system index item.id := by
  obtain ⟨row, hRow, hAsks⟩ := hPending
  have hNotHas : ¬ Has row.id (system.step call).rows := by
    rintro ⟨new, hNew, hId⟩
    rcases row_origin hNew with ⟨old, hOld, hSame, hKept⟩ | ⟨hFresh, -⟩
    · have hEqual : old = row :=
        List.inj_on_of_nodup_map h.keyed hOld hRow (hSame.symm.trans hId)
      subst hEqual
      exact hGone ⟨new, hNew, (hKept key).mpr hAsks⟩
    · exact hFresh (hId ▸ h.drawnRows row hRow)
  by_cases hReplace : ∃ other, call = .replace other
  · obtain ⟨other, rfl⟩ := hReplace
    left
    by_cases hOther : row.AsksResync other
    · have hTenant : other.tenantId = key.tenantId := hOther.1.symm.trans hAsks.1
      have hRequest : other.requestEnvelopeId = key.requestEnvelopeId :=
        hOther.2.2.1.symm.trans hAsks.2.2.1
      cases other
      cases key
      simp only at hTenant hRequest
      rw [hTenant, hRequest]
    · refine absurd ⟨row, ?_, rfl⟩ hNotHas
      exact List.mem_filter.mpr ⟨hRow, decide_eq_true hOther⟩
  · right
    push Not at hReplace
    obtain ⟨index, ending, run, item, rfl, hRun, hItem, hPhase, hGuarded⟩ :=
      complete_of_gone hRow hNotHas hReplace
    have hItemMem := mem_claimed_of_current hItem
    have hCurrent := (guarded_iff h hRun hItemMem hRow).mp hGuarded
    refine ⟨index, ending, run, item, row, hRow, rfl, hRun, hItem, hPhase, ?_, hAsks,
      hCurrent⟩
    -- A transaction that was rolled back would have kept the row.
    rintro thrown rfl
    apply hNotHas
    rw [System.step, step_of_run hRun, RunOnce.complete, hPhase, hItem]
    exact ⟨row, hRow, rfl⟩

/-- The row of a resync request is the only one, so with its completion the request is
gone. -/
theorem not_pending_complete {system : System} (h : Sound system)
    (hSingle : Single system) {key : RequestKey} {index : Nat} {run : RunOnce}
    {item : ClaimedOutboxRow} {ending : RunOnce.TransactionEnd} {row : Row}
    (hRun : system.runs[index]? = some run) (hItem : run.current? = some item)
    (hPhase : run.phase = .delivered)
    (hEnding : ∀ thrown, ending ≠ .rolledBack thrown) (hRow : row ∈ system.rows)
    (hAsks : row.AsksResync key) (hId : row.id = item.id)
    (hCurrent : ¬ Superseded system index item.id) :
    ¬ Pending key (system.step (.complete index ending)).rows := by
  have hRows : (system.step (.complete index ending)).rows =
      system.rows.filter fun found => decide (¬ Guarded item.tenantId item found) := by
    rw [System.step, step_of_run hRun]
    exact complete_of_delivered hItem hPhase hEnding
  rw [hRows]
  rintro ⟨other, hOther, hOtherAsks⟩
  obtain ⟨hMem, hNot⟩ := List.mem_filter.mp hOther
  have hOtherId : other.id = item.id :=
    (hSingle other hMem row hRow key hOtherAsks hAsks).trans hId
  refine of_decide_eq_true hNot ?_
  have hItemMem := mem_claimed_of_current hItem
  exact (guarded_iff h hRun hItemMem hMem).mpr ⟨hOtherId, hCurrent⟩

/-! ### Lost resync requests -/

/-- A `runOnce` that claimed no earlier than this completes the resync request. -/
def CompletesSince (start : Nat) (key : RequestKey) (system : System) (call : Call) :
    Prop :=
  ∃ index ending, call = .complete index ending ∧ start ≤ index ∧
    Pending key system.rows ∧ ¬ Pending key (system.step call).rows

/-- After each freeze there is a resync request, until it is cleared by a resync or
completed by a worker that claimed it after the freeze. -/
def NoResyncLost (calls : List Call) : Prop :=
  ∀ earlier between later key observedDigest id now,
    let before := run System.step .empty earlier
    let frozen := before.step (.freeze key observedDigest id now)
    calls = earlier ++ .freeze key observedDigest id now :: between ++ later →
    id ∉ before.drawn →
    Pending key (run System.step frozen between).rows ∨ .replace key ∈ between ∨
      Occurs System.step frozen between (CompletesSince frozen.runs.length key)

/-- Each worker that is about to delete a resync request, and that claimed it before a
freeze of the request, finds that the row has been claimed again since. -/
def ClaimedAgain (calls : List Call) : Prop :=
  ∀ earlier between later key observedDigest id now index ending,
    let before := run System.step .empty earlier
    let frozen := before.step (.freeze key observedDigest id now)
    let system := run System.step frozen between
    calls = earlier ++ .freeze key observedDigest id now ::
      between ++ .complete index ending :: later →
    id ∉ before.drawn → index < frozen.runs.length →
    (∀ thrown, ending ≠ .rolledBack thrown) →
    ∀ item, Delivered index item system →
      (∃ row ∈ system.rows, row.AsksResync key ∧ row.id = item.id) →
      Superseded system index item.id

/-- A row that was drawn before the run and asks for a resync at its end has asked for
it all along. -/
theorem pending_before {start : System} {earlier later : List Call} {key : RequestKey}
    {row : Row} (hDrawn : row.id ∈ start.drawn)
    (hRow : row ∈ (run System.step start (earlier ++ later)).rows)
    (hAsks : row.AsksResync key) :
    Pending key (run System.step start earlier).rows := by
  by_contra hGone
  have hKept : row.id ∈ (run System.step start earlier).drawn := by
    apply run_invariant (I := fun system : System => row.id ∈ system.drawn) hDrawn
    intro system call h
    exact drawn_step system call h
  have hAbsent : Absent key row.id (run System.step start earlier) :=
    ⟨hKept, fun found hFound _ hFoundAsks => hGone ⟨found, hFound, hFoundAsks⟩⟩
  have hLater : Absent key row.id (run System.step start (earlier ++ later)) := by
    rw [run_append]
    apply run_invariant hAbsent
    intro system call h
    exact h.step call
  exact hLater.2 row hRow rfl hAsks

theorem not_pending_replace (system : System) (key : RequestKey) :
    ¬ Pending key (system.step (.replace key)).rows := by
  rintro ⟨row, hRow, hAsks⟩
  exact of_decide_eq_true (List.mem_filter.mp hRow).2 hAsks

/-- The identifiers of a `runOnce` were drawn before its claim. -/
theorem drawn_of_claimed {system : System} (h : Sound system) {calls : List Call}
    {index : Nat} {item : ClaimedOutboxRow}
    (hDelivered : Delivered index item (run System.step system calls))
    (hIndex : index < system.runs.length) : item.id ∈ system.drawn := by
  obtain ⟨after, hAfter, hItem, -⟩ := hDelivered
  obtain ⟨rest, hRest⟩ : system.history <+: (run System.step system calls).history := by
    apply run_invariant (I := fun state : System => system.history <+: state.history)
    · exact List.prefix_refl _
    · intro state call hPrefix
      exact hPrefix.trans (history_step state call)
  have hClaimed := getElem?_history hAfter
  have hLength : index < system.history.length := by
    rw [System.history, List.length_map]
    exact hIndex
  rw [← hRest, List.getElem?_append_left hLength] at hClaimed
  exact h.drawnItems after.claimed (List.mem_of_getElem? hClaimed) item
    (mem_claimed_of_current hItem)

/-- A worker that is not superseded would delete a request that was made after its claim. -/
theorem NoResyncLost.claimedAgain {calls : List Call} (hKept : NoResyncLost calls) :
    ClaimedAgain calls := by
  intro earlier between later key observedDigest id now index ending before
    frozen system hCalls hFresh hIndex hEnding item hDelivered hPresent
  obtain ⟨row, hRow, hAsks, hId⟩ := hPresent
  by_contra hCurrent
  have hFrozen : Sound frozen := (Sound.run earlier).step _
  have hDrawn : row.id ∈ frozen.drawn := by
    rw [hId]
    exact drawn_of_claimed hFrozen hDelivered hIndex
  have hShape : calls = earlier ++ .freeze key observedDigest id now ::
      (between ++ [.complete index ending]) ++ later := by
    rw [hCalls]
    simp
  have hBetween : ∀ front back, between = front ++ back →
      Pending key (run System.step frozen front).rows := by
    rintro front back rfl
    exact pending_before hDrawn hRow hAsks
  rcases hKept earlier (between ++ [.complete index ending]) later key observedDigest
    id now hShape hFresh with hPending | hReplaced | hCompleted
  · -- The completion is the last call.
    have hSound : Sound system :=
      run_invariant hFrozen (fun _ call h => h.step call) between
    have hSingle : Single system := by
      apply run_invariant ((Single.run earlier).step _)
      intro _ call h
      exact h.step call
    obtain ⟨worker, hWorker, hItem, hPhase⟩ := hDelivered
    rw [run_concat] at hPending
    exact not_pending_complete hSound hSingle hWorker hItem hPhase hEnding hRow hAsks
      hId hCurrent hPending
  · rw [List.mem_append, List.mem_singleton] at hReplaced
    rcases hReplaced with hReplaced | hReplaced
    · obtain ⟨front, back, hParts⟩ := List.append_of_mem hReplaced
      have hPending := hBetween (front ++ [.replace key]) back (by simp [hParts])
      rw [run_concat] at hPending
      exact not_pending_replace _ key hPending
    · cases hReplaced
  · obtain ⟨front, _, back, hParts, hEvent⟩ := hCompleted
    obtain ⟨other, ended, rfl, hSince, -, hGone⟩ := hEvent
    rcases List.eq_nil_or_concat back with rfl | ⟨rest, last, rfl⟩
    · -- The worker claimed the row before the freeze.
      have hLate : frozen.runs.length ≤ other := hSince
      have hSame : index = other ∧ ending = ended := by
        simpa using (List.append_inj' hParts rfl).2
      omega
    · rw [List.concat_eq_append, ← List.cons_append, ← List.append_assoc] at hParts
      have hParts' := (List.append_inj' hParts rfl).1
      have hPending := hBetween (front ++ [.complete other ended]) rest (by
        simp [hParts'])
      rw [run_concat] at hPending
      exact hGone hPending

/-- A resync request goes when it is cleared or completed, and a worker that completes it
is not superseded. -/
theorem ClaimedAgain.noResyncLost {calls : List Call} (hAgain : ClaimedAgain calls) :
    NoResyncLost calls := by
  intro earlier between later key observedDigest id now before frozen hCalls
    hFresh
  have hBefore : Sound before := Sound.run earlier
  have hStart : Pending key frozen.rows :=
    pending_freeze hBefore key observedDigest now hFresh
  by_cases hPending : Pending key (run System.step frozen between).rows
  · exact .inl hPending
  · right
    have hTurn := occurs_turn (Q := fun system : System => ¬ Pending key system.rows)
      (not_not_intro hStart) hPending
    obtain ⟨front, call, back, hBetween, hThere, hGone⟩ := hTurn
    rw [not_not] at hThere
    have hSound : Sound (run System.step frozen front) :=
      run_invariant (hBefore.step _) (fun _ call h => h.step call) front
    rcases cleared_or_completed hSound hThere hGone with rfl | hCompleted
    · left
      rw [hBetween]
      exact List.mem_append_right _ List.mem_cons_self
    · obtain ⟨index, ending, worker, item, row, hRow, rfl, hWorker, hItem, hPhase,
        hEnding, hAsks, hId, hCurrent⟩ := hCompleted
      right
      refine ⟨front, _, back, hBetween, index, ending, rfl, ?_, hThere, hGone⟩
      by_contra hEarly
      rw [Nat.not_le] at hEarly
      have hShape : calls = earlier ++ .freeze key observedDigest id now ::
          front ++ .complete index ending :: (back ++ later) := by
        rw [hCalls, hBetween]
        simp
      exact hCurrent (hAgain earlier front (back ++ later) key observedDigest id now
        index ending hShape hFresh hEarly hEnding item
        ⟨worker, hWorker, hItem, hPhase⟩ ⟨row, hRow, hAsks, hId⟩)

/-- A run loses no resync request exactly when every worker that is about to delete one
that it claimed before a freeze has been superseded. -/
theorem noResyncLost_iff (calls : List Call) :
    NoResyncLost calls ↔ ClaimedAgain calls :=
  ⟨NoResyncLost.claimedAgain, ClaimedAgain.noResyncLost⟩

end Runs

/-! ### A lost resync request -/

def lostKey : RequestKey where
  tenantId := "018f47f5-9f2a-7a30-9f7d-94c4bb5e9711"
  requestEnvelopeId := "018f47f5-9f2a-7a30-9f7d-94c4bb5e9713"

/-- A freeze with a new identifier, at this time. -/
def lostFreeze (digest : UInt8) (id : String) (now : Int) : Call :=
  .freeze lostKey (ByteArr.fill 32 digest).val id now

/-- A resync is requested, and a worker claims the request at once. -/
def lostEarlier : List Call :=
  [lostFreeze 1 "018f47f5-9f2a-7a30-9f7d-94c4bb5e9721" 0,
    .claim (.integer 1) [] { visible := fun _ => 1, lease := fun _ => 1
                             claimed := fun _ => 1 }]

/-- After the second freeze the worker goes on with what it claimed. -/
def lostBetween : List Call :=
  [.deliver 0 (.ok ()), .complete 0 .committed]

/-- The second resync is requested between the claim and the completion of the first
one, and nobody delivers it. -/
theorem resync_lost :
    let _ : Cryptography := keyedHashCryptography
    ¬ ∀ calls, NoResyncLost calls := by
  intro _ hKept
  have hLost := hKept (lostEarlier ++
    lostFreeze 2 "018f47f5-9f2a-7a30-9f7d-94c4bb5e9722" 2 :: lostBetween ++ [])
    lostEarlier lostBetween [] lostKey _ _ 2 rfl (by decide +kernel)
  rcases hLost with hPending | hReplaced | hCompleted
  · exact absurd hPending (by decide +kernel)
  · simp [lostBetween] at hReplaced
  · -- The only worker claimed before the second freeze.
    obtain ⟨call, hCall, _, index, ending, rfl, hSince, -⟩ := hCompleted.exists_mem
    have hRuns : 1 ≤ index := hSince
    have hIndex : index = 0 := by
      simp [lostBetween] at hCall
      exact hCall.1
    omega

end Outbox
end Hosted
end RootPermit
