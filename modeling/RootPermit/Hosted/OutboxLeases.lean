import RootPermit.Hosted.Outbox

/-!
# Leases of the outbox

Every claim advances the generation of the rows that it leases, and a worker changes a
row only in the generation of its own claim.  The executions of `runOnce` are kept in
the order of their claims, so a later claim of a row is a claim by a later one of them.

* `Effect` — what a call can do to the table and to the claims;
* `Sound.step` — the generation of a row is the number of its claims so far;
* `guarded_iff` — the guard of a worker holds of the row that it claimed, as long as
  nobody claimed it later.
-/

namespace RootPermit
namespace Hosted
namespace Outbox

open Foundation

/-! ### What a call can do -/

/-- The claims so far, in their order. -/
def System.history (system : System) : List (List ClaimedOutboxRow) :=
  system.runs.map RunOnce.claimed

/-- Rows went, and those that stay keep what a claim returns of them, and their
deduplication keys. -/
structure Narrowed (before after : List Row) : Prop where
  ids : (after.map Row.id).Sublist (before.map Row.id)
  same : ∀ row ∈ after, ∃ old ∈ before,
    row.claimed = old.claimed ∧ row.dedupeKey = old.dedupeKey

namespace Narrowed

theorem refl (rows : List Row) : Narrowed rows rows :=
  ⟨List.Sublist.refl _, fun row hRow => ⟨row, hRow, rfl, rfl⟩⟩

theorem filter (condition : Row → Bool) (rows : List Row) :
    Narrowed rows (rows.filter condition) :=
  ⟨List.filter_sublist.map Row.id,
    fun row hRow => ⟨row, List.mem_of_mem_filter hRow, rfl, rfl⟩⟩

theorem update {condition : Row → Bool} {change : Row → Row} (rows : List Row)
    (hChange : ∀ row, (change row).claimed = row.claimed ∧
      (change row).dedupeKey = row.dedupeKey) :
    Narrowed rows (Table.update condition change rows) := by
  have hIds : ∀ row, (change row).id = row.id :=
    fun row => congrArg ClaimedOutboxRow.id (hChange row).1
  refine ⟨?_, ?_⟩
  · rw [Table.map_update hIds]
  · intro row hRow
    obtain ⟨old, hOld, rfl⟩ := List.mem_map.mp hRow
    refine ⟨old, hOld, ?_⟩
    split
    · exact hChange old
    · exact ⟨rfl, rfl⟩

end Narrowed

/-- A reschedule keeps what a claim returns. -/
theorem claimed_release (old new : Row) :
    (releaseOutboxLeaseOnReschedule old new).claimed = new.claimed := by
  unfold releaseOutboxLeaseOnReschedule
  split <;> rfl

theorem dedupeKey_release (old new : Row) :
    (releaseOutboxLeaseOnReschedule old new).dedupeKey = new.dedupeKey := by
  unfold releaseOutboxLeaseOnReschedule
  split <;> rfl

theorem visibleAfter_release (old new : Row) :
    (releaseOutboxLeaseOnReschedule old new).visibleAfter = new.visibleAfter := by
  unfold releaseOutboxLeaseOnReschedule
  split <;> rfl

theorem keyed_candidates {limit : Nat} {locked : List String} {clock : ClockReadings}
    {rows : List Row} (hKeyed : Table.Keyed Row.id rows) :
    Table.Keyed Row.id (candidates limit locked clock rows) := by
  unfold candidates Table.Keyed
  have hDue : ((rows.filter fun row =>
      decide (Claimable clock row ∧ row.id ∉ locked)).map Row.id).Nodup :=
    hKeyed.sublist (List.filter_sublist.map Row.id)
  have hSorted := (List.perm_insertionSort Precedes
    (rows.filter fun row => decide (Claimable clock row ∧ row.id ∉ locked))).map Row.id
  exact (hSorted.nodup_iff.mpr hDue).sublist ((List.take_sublist limit _).map Row.id)

/-- Only rows that can be claimed are claimed. -/
theorem mem_candidates {limit : Nat} {locked : List String} {clock : ClockReadings}
    {rows : List Row} {row : Row} (h : row ∈ candidates limit locked clock rows) :
    row ∈ rows ∧ Claimable clock row := by
  have hSorted := List.mem_of_mem_take h
  rw [List.mem_insertionSort, List.mem_filter, decide_eq_true_eq] at hSorted
  exact ⟨hSorted.1, hSorted.2.1⟩

/-- What a successful claim returns, and the rows that it leases. -/
theorem claimOutbox_eq_ok {limit : Int} {locked : List String} {clock : ClockReadings}
    {rows leased : List Row} {claimed : List ClaimedOutboxRow}
    (h : claimOutbox limit locked clock rows = .ok (claimed, leased)) :
    let chosen := candidates limit.toNat locked clock rows
    claimed = chosen.map (fun row => (lease clock row).claimed) ∧
      leased = Table.update (fun row => decide (row.id ∈ chosen.map Row.id))
        (lease clock) rows := by
  simp only [claimOutbox, bind_eq_ok_iff, rejectIf_eq_ok_iff, exists_const, pure_eq_ok,
    Except.ok.injEq, Prod.mk.injEq] at h
  obtain ⟨-, -, rfl, rfl⟩ := h
  exact ⟨rfl, rfl⟩

/-- The three ways in which a call changes the table and the claims. -/
inductive Effect (before after : System) : Prop where
  | kept (rows : Narrowed before.rows after.rows)
      (history : after.history = before.history)
      (drawn : before.drawn ⊆ after.drawn)
  | inserted (event : OutboxRow) (id : String) (now : Int) (fresh : id ∉ before.drawn)
      (distinct : ∀ row ∈ before.rows, ¬ Conflicts event row.toOutboxRow)
      (rows : after.rows = before.rows ++ [newRow event id now])
      (history : after.history = before.history)
      (drawn : after.drawn = id :: before.drawn)
  | claimed (chosen : List Row) (clock : ClockReadings)
      (present : ∀ row ∈ chosen, row ∈ before.rows)
      (keyed : Table.Keyed Row.id before.rows → Table.Keyed Row.id chosen)
      (rows : after.rows = Table.update
        (fun row => decide (row.id ∈ chosen.map Row.id)) (lease clock) before.rows)
      (history : after.history =
        before.history ++ [chosen.map fun row => (lease clock row).claimed])
      (drawn : after.drawn = before.drawn)

theorem Effect.refl (system : System) : Effect system system :=
  .kept (.refl _) rfl (List.Subset.refl _)

theorem insert_eq_ok {event : OutboxRow} {id : String} {now : Int}
    {rows inserted : List Row} (h : insert event id now rows = .ok inserted) :
    inserted = rows ++ [newRow event id now] ∧
      ∀ row ∈ rows, row.id ≠ id ∧ ¬ Conflicts event row.toOutboxRow := by
  simp only [insert, bind_eq_ok_iff, rejectIf_eq_ok_iff, exists_const, pure_eq_ok,
    Except.ok.injEq, not_exists, not_and, not_or] at h
  obtain ⟨-, hFresh, rfl⟩ := h
  exact ⟨rfl, hFresh⟩

/-- A statement with a new identifier inserts a row of that identifier, or narrows the
table. -/
theorem withUuid_effect {system : System} {id : String}
    {statement : List Row → Except QueueError (List Row)}
    (hStatement : ∀ rows, statement system.rows = .ok rows →
      Narrowed system.rows rows ∨
        ∃ event now, insert event id now system.rows = .ok rows) :
    Effect system (system.withUuid id statement) := by
  unfold System.withUuid
  split
  · exact .refl system
  · rename_i hFresh
    cases hRows : statement system.rows with
    | error fault => exact .kept (.refl _) rfl (List.subset_cons_self _ _)
    | ok rows =>
        rcases hStatement rows hRows with hNarrowed | ⟨event, now, hInserted⟩
        · exact .kept hNarrowed rfl (List.subset_cons_self _ _)
        · obtain ⟨rfl, hDistinct⟩ := insert_eq_ok hInserted
          exact .inserted event id now hFresh (fun row hRow => (hDistinct row hRow).2)
            rfl rfl rfl

/-- A step of one `runOnce` that keeps its claim and narrows the table. -/
theorem withRun_effect {system : System} {index : Nat}
    {work : RunOnce → List Row → RunOnce × List Row}
    (hWork : ∀ run rows, (work run rows).1.claimed = run.claimed ∧
      Narrowed rows (work run rows).2) :
    Effect system (system.withRun index work) := by
  unfold System.withRun
  split
  · exact .refl system
  · rename_i run hRun
    obtain ⟨hClaimed, hRows⟩ := hWork run system.rows
    refine .kept hRows ?_ (List.Subset.refl _)
    show (system.runs.set index _).map RunOnce.claimed = system.runs.map RunOnce.claimed
    obtain ⟨hBounds, rfl⟩ := List.getElem?_eq_some_iff.mp hRun
    rw [List.map_set, hClaimed, ← List.getElem_map RunOnce.claimed,
      List.set_getElem_self]
    simpa using hBounds

theorem claimed_deliver (run : RunOnce) (outcome : Except Thrown Unit) :
    (run.deliver outcome).claimed = run.claimed := by
  unfold RunOnce.deliver
  split
  · split <;> rfl
  · rfl

theorem claimed_complete (run : RunOnce) (ending : RunOnce.TransactionEnd)
    (rows : List Row) :
    (run.complete ending rows).1.claimed = run.claimed ∧
      Narrowed rows (run.complete ending rows).2 := by
  unfold RunOnce.complete
  split
  · rename_i item _ _
    have hDeleted : Narrowed rows (deleteClaimed item rows).2 := .filter _ rows
    cases ending with
    | committed => exact ⟨rfl, hDeleted⟩
    | rolledBack thrown => exact ⟨rfl, .refl rows⟩
    | unanswered thrown => exact ⟨rfl, hDeleted⟩
  · exact ⟨rfl, .refl rows⟩

theorem rescheduleClaimed_eq_ok {item : ClaimedOutboxRow} {now retryAfterMs : Int}
    {rows changed : List Row}
    (h : rescheduleClaimed item now retryAfterMs rows = .ok changed) :
    changed = Table.update (fun row => decide (Guarded item.tenantId item row))
      (postpone now retryAfterMs) rows := by
  simp only [rescheduleClaimed, withClaimTenant, bind_eq_ok_iff, rejectIf_eq_ok_iff,
    exists_const, pure_eq_ok, Except.ok.injEq] at h
  exact h.2.symm

theorem claimed_postpone (now retryAfterMs : Int) (row : Row) :
    (postpone now retryAfterMs row).claimed = row.claimed :=
  claimed_release _ _

theorem claimed_reschedule (run : RunOnce) (now : Int)
    (ending : RunOnce.TransactionEnd) (rows : List Row) :
    (run.reschedule now ending rows).1.claimed = run.claimed ∧
      Narrowed rows (run.reschedule now ending rows).2 := by
  unfold RunOnce.reschedule
  split
  · rename_i retryAfterMs item _ _
    cases hChanged : rescheduleClaimed item now retryAfterMs rows with
    | error fault => exact ⟨rfl, .refl rows⟩
    | ok changed =>
        have hNarrowed : Narrowed rows changed := by
          rw [rescheduleClaimed_eq_ok hChanged]
          exact .update rows fun row => ⟨claimed_postpone now retryAfterMs row,
            dedupeKey_release _ _⟩
        cases ending with
        | committed => exact ⟨rfl, hNarrowed⟩
        | rolledBack thrown => exact ⟨rfl, .refl rows⟩
        | unanswered thrown => exact ⟨rfl, hNarrowed⟩
  · exact ⟨rfl, .refl rows⟩

/-! ### Generations count claims -/

/-- The row with this identifier is among the claimed ones. -/
def Claims (id : String) (claimed : List ClaimedOutboxRow) : Prop :=
  id ∈ claimed.map ClaimedOutboxRow.id

instance (id : String) (claimed : List ClaimedOutboxRow) :
    Decidable (Claims id claimed) :=
  inferInstanceAs (Decidable (_ ∈ _))

/-- What stands in a list with one more item stood there before, or is the new item. -/
theorem getElem?_concat_eq_some {α : Type} {items : List α} {last item : α}
    {index : Nat} (h : (items ++ [last])[index]? = some item) :
    items[index]? = some item ∨ index = items.length ∧ item = last := by
  rcases Nat.lt_or_ge index items.length with hIndex | hIndex
  · rw [List.getElem?_append_left hIndex] at h
    exact .inl h
  · rw [List.getElem?_append_right hIndex] at h
    obtain ⟨hZero, hLast⟩ := List.getElem?_eq_some_iff.mp h
    rw [List.length_singleton] at hZero
    rw [List.getElem_singleton] at hLast
    exact .inr ⟨by omega, hLast.symm⟩

/-- How often a row was claimed. -/
def claimsOf (id : String) (history : List (List ClaimedOutboxRow)) : Nat :=
  history.countP fun claimed => decide (Claims id claimed)

theorem claimsOf_concat (id : String) (history : List (List ClaimedOutboxRow))
    (claimed : List ClaimedOutboxRow) :
    claimsOf id (history ++ [claimed]) =
      claimsOf id history + if Claims id claimed then 1 else 0 := by
  rw [claimsOf, claimsOf, List.countP_append, List.countP_singleton]
  simp only [decide_eq_true_eq]

theorem claimsOf_eq_zero {id : String} {history : List (List ClaimedOutboxRow)}
    (h : ∀ claimed ∈ history, ¬ Claims id claimed) : claimsOf id history = 0 := by
  rw [claimsOf, List.countP_eq_zero]
  intro claimed hClaimed
  simpa using h claimed hClaimed

/-- What holds of the table and the claims in every run. -/
structure Sound (system : System) : Prop where
  keyed : Table.Keyed Row.id system.rows
  drawnRows : ∀ row ∈ system.rows, row.id ∈ system.drawn
  drawnItems : ∀ claimed ∈ system.history, ∀ item ∈ claimed, item.id ∈ system.drawn
  distinct : ∀ claimed ∈ system.history, (claimed.map ClaimedOutboxRow.id).Nodup
  generation : ∀ row ∈ system.rows,
    row.leaseGeneration = claimsOf row.id system.history
  itemGeneration : ∀ index claimed, system.history[index]? = some claimed →
    ∀ item ∈ claimed,
      item.leaseGeneration = claimsOf item.id (system.history.take (index + 1))
  origin : ∀ claimed ∈ system.history, ∀ item ∈ claimed, ∀ row ∈ system.rows,
    row.id = item.id →
      row.claimed = { item with leaseGeneration := row.leaseGeneration }

namespace Sound

variable {system after : System}

theorem kept (h : Sound system) (hRows : Narrowed system.rows after.rows)
    (hHistory : after.history = system.history)
    (hDrawn : system.drawn ⊆ after.drawn) : Sound after := by
  refine ⟨h.keyed.sublist hRows.ids, ?_, ?_, ?_, ?_, ?_, ?_⟩
  · intro row hRow
    obtain ⟨old, hOld, hSame, -⟩ := hRows.same row hRow
    have hId : row.id = old.id := congrArg ClaimedOutboxRow.id hSame
    rw [hId]
    exact hDrawn (h.drawnRows old hOld)
  · rw [hHistory]
    intro claimed hClaimed item hItem
    exact hDrawn (h.drawnItems claimed hClaimed item hItem)
  · rw [hHistory]
    exact h.distinct
  · intro row hRow
    obtain ⟨old, hOld, hSame, -⟩ := hRows.same row hRow
    have hId : row.id = old.id := congrArg ClaimedOutboxRow.id hSame
    have hGeneration : row.leaseGeneration = old.leaseGeneration :=
      congrArg ClaimedOutboxRow.leaseGeneration hSame
    rw [hHistory, hId, hGeneration]
    exact h.generation old hOld
  · rw [hHistory]
    exact h.itemGeneration
  · rw [hHistory]
    intro claimed hClaimed item hItem row hRow hId
    obtain ⟨old, hOld, hSame, -⟩ := hRows.same row hRow
    have hOldId : old.id = item.id :=
      (congrArg ClaimedOutboxRow.id hSame).symm.trans hId
    have hGeneration : row.leaseGeneration = old.leaseGeneration :=
      congrArg ClaimedOutboxRow.leaseGeneration hSame
    rw [hSame, hGeneration]
    exact h.origin claimed hClaimed item hItem old hOld hOldId

theorem inserted (h : Sound system) {event : OutboxRow} {id : String} {now : Int}
    (hFresh : id ∉ system.drawn)
    (hRows : after.rows = system.rows ++ [newRow event id now])
    (hHistory : after.history = system.history)
    (hDrawn : after.drawn = id :: system.drawn) : Sound after := by
  have hMem : ∀ row ∈ after.rows, row ∈ system.rows ∨ row = newRow event id now := by
    intro row hRow
    rw [hRows, List.mem_append, List.mem_singleton] at hRow
    exact hRow
  -- Nothing that was drawn before has the new identifier.
  have hNew : ∀ claimed ∈ system.history, ¬ Claims id claimed := by
    intro claimed hClaimed hClaims
    obtain ⟨item, hItem, rfl⟩ := List.mem_map.mp hClaims
    exact hFresh (h.drawnItems claimed hClaimed item hItem)
  refine ⟨?_, ?_, ?_, ?_, ?_, ?_, ?_⟩
  · rw [hRows]
    unfold Table.Keyed
    rw [List.map_append, List.nodup_append]
    refine ⟨h.keyed, List.nodup_singleton _, ?_⟩
    rintro _ hOld _ hLast rfl
    obtain ⟨old, hOldRow, hId⟩ := List.mem_map.mp hOld
    rw [List.map_singleton, List.mem_singleton] at hLast
    apply hFresh
    rw [show id = old.id from (hId.trans hLast).symm]
    exact h.drawnRows old hOldRow
  · intro row hRow
    rw [hDrawn]
    rcases hMem row hRow with hOld | rfl
    · exact List.mem_cons_of_mem _ (h.drawnRows row hOld)
    · exact List.mem_cons_self
  · rw [hHistory, hDrawn]
    intro claimed hClaimed item hItem
    exact List.mem_cons_of_mem _ (h.drawnItems claimed hClaimed item hItem)
  · rw [hHistory]
    exact h.distinct
  · intro row hRow
    rw [hHistory]
    rcases hMem row hRow with hOld | rfl
    · exact h.generation row hOld
    · exact (claimsOf_eq_zero hNew).symm
  · rw [hHistory]
    exact h.itemGeneration
  · rw [hHistory]
    intro claimed hClaimed item hItem row hRow hId
    rcases hMem row hRow with hOld | rfl
    · exact h.origin claimed hClaimed item hItem row hOld hId
    · exact absurd (List.mem_map.mpr ⟨item, hItem, hId.symm⟩) (hNew claimed hClaimed)

/-- The items of a claim carry the number of the claims up to it. -/
theorem itemGeneration_claimed (h : Sound system) {chosen : List Row}
    {clock : ClockReadings} (hPresent : ∀ row ∈ chosen, row ∈ system.rows) :
    let history := system.history ++ [chosen.map fun row => (lease clock row).claimed]
    ∀ index claimed, history[index]? = some claimed → ∀ item ∈ claimed,
      item.leaseGeneration = claimsOf item.id (history.take (index + 1)) := by
  intro history index claimed hClaimed item hItem
  rcases getElem?_concat_eq_some hClaimed with hOld | ⟨rfl, rfl⟩
  · have hIndex := (List.getElem?_eq_some_iff.mp hOld).1
    rw [List.take_append_of_le_length hIndex]
    exact h.itemGeneration index claimed hOld item hItem
  · have hAll : history.length ≤ system.history.length + 1 := by
      rw [List.length_append, List.length_singleton]
    rw [List.take_of_length_le hAll, claimsOf_concat]
    have hNow : Claims item.id (chosen.map fun row => (lease clock row).claimed) :=
      List.mem_map_of_mem hItem
    rw [if_pos hNow]
    obtain ⟨row, hRow, rfl⟩ := List.mem_map.mp hItem
    show row.leaseGeneration + 1 = _
    rw [h.generation row (hPresent row hRow)]
    rfl

theorem claimed (h : Sound system) {chosen : List Row} {clock : ClockReadings}
    (hPresent : ∀ row ∈ chosen, row ∈ system.rows)
    (hChosen : Table.Keyed Row.id chosen)
    (hRows : after.rows = Table.update
      (fun row => decide (row.id ∈ chosen.map Row.id)) (lease clock) system.rows)
    (hHistory : after.history =
      system.history ++ [chosen.map fun row => (lease clock row).claimed])
    (hDrawn : after.drawn = system.drawn) : Sound after := by
  have hIds : (chosen.map fun row => (lease clock row).claimed).map
      ClaimedOutboxRow.id = chosen.map Row.id := by
    rw [List.map_map]
    rfl
  have hClaims : ∀ id, Claims id (chosen.map fun row => (lease clock row).claimed) ↔
      id ∈ chosen.map Row.id := by
    intro id
    rw [Claims, hIds]
  -- Each row afterwards is an old one, under a new lease when it was chosen.
  have hMem : ∀ row ∈ after.rows, ∃ old ∈ system.rows,
      (if old.id ∈ chosen.map Row.id then lease clock old else old) = row := by
    intro row hRow
    rw [hRows] at hRow
    obtain ⟨old, hOld, hSame⟩ := List.mem_map.mp hRow
    refine ⟨old, hOld, ?_⟩
    simpa only [decide_eq_true_eq] using hSame
  refine ⟨?_, ?_, ?_, ?_, ?_, ?_, ?_⟩
  · rw [hRows]
    unfold Table.Keyed
    have hKept : ∀ row, (lease clock row).id = row.id := fun _ => rfl
    rw [Table.map_update hKept]
    exact h.keyed
  · intro row hRow
    obtain ⟨old, hOld, rfl⟩ := hMem row hRow
    rw [hDrawn]
    split
    · exact h.drawnRows old hOld
    · exact h.drawnRows old hOld
  · rw [hHistory, hDrawn]
    intro claimed hClaimed item hItem
    rcases List.mem_append.mp hClaimed with hOld | hNew
    · exact h.drawnItems claimed hOld item hItem
    · rw [List.mem_singleton] at hNew
      subst hNew
      obtain ⟨row, hRow, rfl⟩ := List.mem_map.mp hItem
      exact h.drawnRows row (hPresent row hRow)
  · rw [hHistory]
    intro claimed hClaimed
    rcases List.mem_append.mp hClaimed with hOld | hNew
    · exact h.distinct claimed hOld
    · rw [List.mem_singleton] at hNew
      rw [hNew, hIds]
      exact hChosen
  · intro row hRow
    obtain ⟨old, hOld, rfl⟩ := hMem row hRow
    rw [hHistory, claimsOf_concat]
    split
    · rename_i hId
      show old.leaseGeneration + 1 = _
      rw [h.generation old hOld]
      have hNow : Claims (lease clock old).id
          (chosen.map fun row => (lease clock row).claimed) := (hClaims _).mpr hId
      rw [if_pos hNow]
      rfl
    · rename_i hId
      rw [if_neg fun hNow => hId ((hClaims _).mp hNow)]
      exact h.generation old hOld
  · rw [hHistory]
    exact h.itemGeneration_claimed hPresent
  · rw [hHistory]
    intro claimed hClaimed item hItem row hRow hId
    obtain ⟨old, hOld, rfl⟩ := hMem row hRow
    have hOldId : old.id = item.id := by
      rw [← hId]
      split <;> rfl
    rcases List.mem_append.mp hClaimed with hBefore | hNew
    · have hOrigin := h.origin claimed hBefore item hItem old hOld hOldId
      split
      · show { old.claimed with leaseGeneration := old.leaseGeneration + 1 } = _
        rw [hOrigin]
        rfl
      · exact hOrigin
    · rw [List.mem_singleton] at hNew
      subst hNew
      obtain ⟨leased, hLeased, rfl⟩ := List.mem_map.mp hItem
      -- Two rows of one id are one row.
      have hSame : leased = old :=
        List.inj_on_of_nodup_map h.keyed (hPresent leased hLeased) hOld hOldId.symm
      subst hSame
      rw [if_pos (List.mem_map_of_mem hLeased)]
      rfl

theorem empty : Sound System.empty := by
  refine ⟨List.nodup_nil, ?_, ?_, ?_, ?_, ?_, ?_⟩
  all_goals simp [System.empty, System.history]

end Sound

/-! ### The guard of a worker -/

/-- A later `runOnce` than this one claimed the row. -/
def Superseded (system : System) (index : Nat) (id : String) : Prop :=
  ∃ later run, index < later ∧ system.runs[later]? = some run ∧ Claims id run.claimed

theorem claimsOf_drop_eq_zero_iff {system : System} {index : Nat} {id : String} :
    claimsOf id (system.history.drop (index + 1)) = 0 ↔
      ¬ Superseded system index id := by
  rw [claimsOf, List.countP_eq_zero]
  constructor
  · rintro h ⟨later, run, hLater, hRun, hClaims⟩
    apply h run.claimed
    · rw [List.mem_iff_getElem?]
      refine ⟨later - (index + 1), ?_⟩
      rw [List.getElem?_drop, System.history, List.getElem?_map,
        show index + 1 + (later - (index + 1)) = later by omega, hRun]
      rfl
    · exact decide_eq_true hClaims
  · intro h claimed hClaimed hClaims
    obtain ⟨offset, hOffset⟩ := List.mem_iff_getElem?.mp hClaimed
    rw [List.getElem?_drop, System.history, List.getElem?_map, Option.map_eq_some_iff]
      at hOffset
    obtain ⟨run, hRun, rfl⟩ := hOffset
    exact h ⟨index + 1 + offset, run, by omega, hRun, of_decide_eq_true hClaims⟩

section Guard

variable {system : System} {index : Nat} {run : RunOnce} {item : ClaimedOutboxRow}

theorem mem_claimed_of_current (hItem : run.current? = some item) :
    item ∈ run.claimed :=
  List.mem_of_getElem? hItem

theorem getElem?_history (hRun : system.runs[index]? = some run) :
    system.history[index]? = some run.claimed := by
  rw [System.history, List.getElem?_map, hRun]
  rfl

theorem mem_history (hRun : system.runs[index]? = some run) :
    run.claimed ∈ system.history :=
  List.mem_of_getElem? (getElem?_history hRun)

/-- A claim returns a row once. -/
theorem Sound.position_eq (h : Sound system)
    (hRun : system.runs[index]? = some run) {first second : Nat}
    {other : ClaimedOutboxRow} (hFirst : run.claimed[first]? = some item)
    (hSecond : run.claimed[second]? = some other) (hId : item.id = other.id) :
    first = second := by
  have hDistinct := h.distinct _ (mem_history hRun)
  have hFirstId : (run.claimed.map ClaimedOutboxRow.id)[first]? = some item.id := by
    rw [List.getElem?_map, hFirst]
    rfl
  have hSecondId : (run.claimed.map ClaimedOutboxRow.id)[second]? = some item.id := by
    rw [List.getElem?_map, hSecond, hId]
    rfl
  have hBounds := (List.getElem?_eq_some_iff.mp hFirstId).1
  exact (List.getElem?_inj hBounds hDistinct).mp (hFirstId.trans hSecondId.symm)

/-- The table holds the row of an item in the generation of the item exactly as long as
no later claim has happened. -/
theorem generation_eq_iff (h : Sound system) (hRun : system.runs[index]? = some run)
    (hItem : item ∈ run.claimed) {row : Row} (hRow : row ∈ system.rows)
    (hId : row.id = item.id) :
    row.leaseGeneration = item.leaseGeneration ↔ ¬ Superseded system index item.id := by
  have hSplit : claimsOf item.id system.history =
      claimsOf item.id (system.history.take (index + 1)) +
        claimsOf item.id (system.history.drop (index + 1)) := by
    rw [claimsOf, claimsOf, claimsOf, ← List.countP_append, List.take_append_drop]
  rw [← claimsOf_drop_eq_zero_iff, h.generation row hRow, hId,
    h.itemGeneration index _ (getElem?_history hRun) item hItem]
  omega

/-- The row of an item has the tenant and the relation of the item. -/
theorem guarded_iff (h : Sound system) (hRun : system.runs[index]? = some run)
    (hItem : item ∈ run.claimed) {row : Row} (hRow : row ∈ system.rows) :
    Guarded item.tenantId item row ↔
      row.id = item.id ∧ ¬ Superseded system index item.id := by
  constructor
  · rintro ⟨-, hId, -, -, -, hGeneration⟩
    exact ⟨hId, (generation_eq_iff h hRun hItem hRow hId).mp hGeneration⟩
  · rintro ⟨hId, hCurrent⟩
    have hOrigin := h.origin _ (mem_history hRun) item hItem row hRow hId
    exact ⟨congrArg ClaimedOutboxRow.tenantId hOrigin, hId,
      congrArg ClaimedOutboxRow.relationType hOrigin,
      congrArg ClaimedOutboxRow.relationId hOrigin,
      congrArg ClaimedOutboxRow.eventType hOrigin,
      (generation_eq_iff h hRun hItem hRow hId).mpr hCurrent⟩

end Guard

/-! ### All calls -/

variable [Cryptography]

theorem queueResync_eq_ok {key : RequestKey} {observedDigest : Bytes} {id : String}
    {now : Int} {rows queued : List Row}
    (h : queueResync key observedDigest id now rows = .ok queued) :
    ((∃ row ∈ rows, row.AsksResync key) ∧
      queued = Table.update (fun row => decide (row.AsksResync key))
        (fun row =>
          releaseOutboxLeaseOnReschedule row { row with visibleAfter := now }) rows) ∨
    ((∀ row ∈ rows, ¬ row.AsksResync key) ∧
      insert (resyncEvent key observedDigest) id now rows = .ok queued) := by
  unfold queueResync at h
  split at h
  · rename_i hPresent
    cases h
    exact .inl ⟨hPresent, rfl⟩
  · rename_i hAbsent
    refine .inr ⟨?_, h⟩
    intro row hRow hAsks
    exact hAbsent ⟨row, hRow, hAsks⟩

theorem step_effect (system : System) (call : Call) :
    Effect system (system.step call) := by
  cases call with
  | enqueue event id now =>
      exact withUuid_effect fun rows hRows => .inr ⟨event, now, hRows⟩
  | freeze key observedDigest id now =>
      refine withUuid_effect fun rows hRows => ?_
      rcases queueResync_eq_ok hRows with ⟨-, rfl⟩ | ⟨-, hInserted⟩
      · exact .inl (.update _ fun row => ⟨claimed_release _ _, dedupeKey_release _ _⟩)
      · exact .inr ⟨_, now, hInserted⟩
  | replace key => exact .kept (.filter _ _) rfl (List.Subset.refl _)
  | claim limit locked clock =>
      show Effect system (system.claim limit locked clock)
      unfold System.claim
      split
      · exact .refl system
      · split
        · exact .refl system
        · rename_i claimed rows hClaim
          obtain ⟨rfl, rfl⟩ := claimOutbox_eq_ok hClaim
          refine .claimed _ clock (fun row hRow => (mem_candidates hRow).1)
            keyed_candidates rfl ?_ rfl
          simp [System.history]
  | deliver index outcome =>
      show Effect system
        (system.withRun index fun run rows => (run.deliver outcome, rows))
      refine withRun_effect ?_
      intro run rows
      exact ⟨claimed_deliver run outcome, .refl rows⟩
  | complete index ending => exact withRun_effect fun run => claimed_complete run ending
  | reschedule index now ending =>
      exact withRun_effect fun run => claimed_reschedule run now ending

theorem Sound.step {system : System} (h : Sound system) (call : Call) :
    Sound (system.step call) := by
  cases step_effect system call with
  | kept hRows hHistory hDrawn => exact h.kept hRows hHistory hDrawn
  | inserted event id now hFresh hDistinct hRows hHistory hDrawn =>
      exact h.inserted hFresh hRows hHistory hDrawn
  | claimed chosen clock hPresent hChosen hRows hHistory hDrawn =>
      exact h.claimed hPresent (hChosen h.keyed) hRows hHistory hDrawn

theorem Sound.run (calls : List Call) :
    Sound (Foundation.run System.step .empty calls) :=
  run_invariant Sound.empty (fun _ call h => h.step call) calls

end Outbox
end Hosted
end RootPermit
