import RootPermit.Hosted.FrozenProjection

/-!
# The history that the projections hold

Three tables of the service are kept by two operations: the rows of a projection, its
sync state and the request for a resync.  `Chained` says what the first two hold of a
request: the rows are those of a contiguous chain of events, and the sync state counts
them.  It holds in every run from empty tables, each event of the chain was accepted by
a call of the run, and a call leaves the rows of every other request alone
(`projection_chains`).
-/

namespace RootPermit
namespace Hosted

open Foundation

/-! ### Chains of events -/

/-- The rows of a chain of events, numbered from `index` on. -/
def chainRows (key : RequestKey) (index : Nat) :
    List VerifiedLifecycleEvent → List ProjectionRow
  | [] => []
  | event :: events =>
      { key, brokerSequence := index, eventDigest := event.eventDigest
        state := event.state, frozenGap := false } :: chainRows key (index + 1) events

/-- The digest that the next event of a chain has to name. -/
def chainDigest (prior : Option Bytes) : List VerifiedLifecycleEvent → Option Bytes
  | [] => prior
  | event :: events => chainDigest (some event.eventDigest) events

section Chains

variable {key : RequestKey} {index : Nat} {prior : Option Bytes}
  {events : List VerifiedLifecycleEvent} {event : VerifiedLifecycleEvent}

theorem chainRows_concat : chainRows key index (events ++ [event]) =
    chainRows key index events ++
      [{ key, brokerSequence := (index + events.length : Nat)
         eventDigest := event.eventDigest, state := event.state, frozenGap := false }] := by
  induction events generalizing index with
  | nil => rfl
  | cons first rest ih =>
      rw [List.cons_append, chainRows, ih, chainRows, List.length_cons,
        List.cons_append, Nat.add_right_comm, Nat.add_assoc]

@[simp] theorem length_chainRows :
    (chainRows key index events).length = events.length := by
  induction events generalizing index with
  | nil => rfl
  | cons first rest ih => rw [chainRows, List.length_cons, ih, List.length_cons]

theorem map_digest_chainRows : (chainRows key index events).map ProjectionRow.eventDigest =
    events.map VerifiedLifecycleEvent.eventDigest := by
  induction events generalizing index with
  | nil => rfl
  | cons first rest ih => rw [chainRows, List.map_cons, ih, List.map_cons]

theorem chainDigest_concat :
    chainDigest prior (events ++ [event]) = some event.eventDigest := by
  induction events generalizing prior with
  | nil => rfl
  | cons first rest ih => exact ih

/-- A chain is continued by an event with the next number that names its last
digest. -/
theorem validateContiguousChain_concat {done : Unit} :
    validateContiguousChain index prior (events ++ [event]) = .ok done ↔
      validateContiguousChain index prior events = .ok () ∧
        event.sequence = .integer (index + events.length : Nat) ∧
        event.previousEventDigest = chainDigest prior events := by
  induction events generalizing index prior with
  | nil =>
      simp [validateContiguousChain, chainDigest, bind_eq_ok_iff]
  | cons first rest ih =>
      rw [List.cons_append, validateContiguousChain, validateContiguousChain,
        bind_eq_ok_iff, bind_eq_ok_iff, List.length_cons, chainDigest,
        Nat.add_comm rest.length, ← Nat.add_assoc]
      simp only [ih]
      constructor
      · rintro ⟨_, hFirst, hRest, hNext⟩
        exact ⟨⟨(), hFirst, hRest⟩, hNext⟩
      · rintro ⟨⟨_, hFirst, hRest⟩, hNext⟩
        exact ⟨(), hFirst, hRest, hNext⟩

/-- The rows of a chain are those of its events, by their numbers. -/
theorem mem_chainRows_iff {row : ProjectionRow} :
    row ∈ chainRows key index events ↔ ∃ offset event, events[offset]? = some event ∧
      row = { key, brokerSequence := (index + offset : Nat)
              eventDigest := event.eventDigest, state := event.state
              frozenGap := false } := by
  induction events generalizing index with
  | nil => simp [chainRows]
  | cons first rest ih =>
      rw [chainRows, List.mem_cons, ih]
      constructor
      · rintro (rfl | ⟨offset, event, hFound, rfl⟩)
        · exact ⟨0, first, rfl, rfl⟩
        · refine ⟨offset + 1, event, hFound, ?_⟩
          rw [Nat.add_right_comm, Nat.add_assoc]
      · rintro ⟨offset, event, hFound, rfl⟩
        cases offset with
        | zero =>
            rw [List.getElem?_cons_zero, Option.some.injEq] at hFound
            rw [hFound]
            exact Or.inl rfl
        | succ offset =>
            refine Or.inr ⟨offset, event, hFound, ?_⟩
            rw [Nat.add_right_comm index 1, Nat.add_assoc]

/-- The numbers of the rows of a chain. -/
theorem mem_chainRows_sequence {row : ProjectionRow}
    (h : row ∈ chainRows key index events) :
    (index : Int) ≤ row.brokerSequence ∧
      row.brokerSequence < (index + events.length : Nat) := by
  obtain ⟨offset, event, hFound, rfl⟩ := mem_chainRows_iff.mp h
  obtain ⟨hOffset, -⟩ := List.getElem?_eq_some_iff.mp hFound
  refine ⟨?_, ?_⟩
  · push_cast
    omega
  · push_cast
    omega

/-- The events of a chain have its numbers as sequences. -/
theorem sequence_of_contiguous {offset : Nat}
    (h : validateContiguousChain index prior events = .ok ())
    (hFound : events[offset]? = some event) :
    event.sequence = .integer (index + offset : Nat) := by
  induction events generalizing index prior offset with
  | nil => cases hFound
  | cons first rest ih =>
      simp only [validateContiguousChain, bind_eq_ok_iff, rejectIf_eq_ok_iff, ne_eq,
        not_or, not_not] at h
      obtain ⟨_, ⟨hNumber, -⟩, hRest⟩ := h
      cases offset with
      | zero =>
          rw [List.getElem?_cons_zero, Option.some.injEq] at hFound
          rw [← hFound]
          exact hNumber
      | succ offset =>
          rw [ih hRest hFound, Nat.add_right_comm, Nat.add_assoc]

/-- The last row of a chain is the one that the query finds. -/
theorem latest_chainRows_concat :
    latest (chainRows key index (events ++ [event])) =
      some { key, brokerSequence := (index + events.length : Nat)
             eventDigest := event.eventDigest, state := event.state
             frozenGap := false } := by
  have hOrdered : ∀ (index : Nat) (events : List VerifiedLifecycleEvent),
      (chainRows key index events).Pairwise fun first second =>
        ¬ second.brokerSequence ≤ first.brokerSequence := by
    intro index events
    induction events generalizing index with
    | nil => exact .nil
    | cons first rest ih =>
        rw [chainRows, List.pairwise_cons]
        refine ⟨?_, ih (index + 1)⟩
        intro row hRow hNotLater
        have hLater := (mem_chainRows_sequence hRow).1
        push_cast at hLater
        change row.brokerSequence ≤ (index : Int) at hNotLater
        omega
  rw [latest, Table.insertionSort_of_opposite (hOrdered index _), chainRows_concat]
  simp

/-- What follows the rows of a chain continues the chain. -/
theorem follows_chainRows_iff {sequence : Int} {previous : Option Bytes} :
    Follows (chainRows key 0 events) sequence previous ↔
      sequence = events.length ∧ previous = chainDigest none events := by
  rcases List.eq_nil_or_concat events with rfl | ⟨front, last, rfl⟩
  · simp [Follows, chainRows, latest, chainDigest]
  · rw [List.concat_eq_append, Follows, latest_chainRows_concat, chainDigest_concat,
      List.length_append, List.length_singleton]
    simp

/-- A checked event has the sequence that was read of it. -/
theorem sequence_of_validateEvent {sequence : Int}
    (h : validateEvent event = .ok sequence) : event.sequence = .integer sequence := by
  simp only [validateEvent, bind_eq_ok_iff, orFault_eq_ok_iff, pure_eq_ok,
    Except.ok.injEq] at h
  obtain ⟨_, -, found, hFound, _, -, _, -, _, -, rfl⟩ := h
  cases hNumber : event.sequence with
  | other =>
      rw [hNumber] at hFound
      cases hFound
  | integer value =>
      rw [hNumber, Number.asSequence?] at hFound
      split at hFound
      · rw [Option.some.inj hFound]
      · cases hFound

/-- The sequences that a resync has checked are the numbers of its chain. -/
theorem validateResync_eq_ok {requestPublicId : String} {sequences : List Int}
    (h : validateResync requestPublicId events = .ok sequences)
    (hChain : validateContiguousChain index prior events = .ok ()) :
    sequences = (List.range' index events.length).map Int.ofNat := by
  induction events generalizing index prior sequences with
  | nil =>
      rw [validateResync, Except.ok.injEq] at h
      exact h.symm
  | cons first rest ih =>
      simp only [validateResync, bind_eq_ok_iff, pure_eq_ok, Except.ok.injEq] at h
      obtain ⟨sequence, hSequence, _, -, later, hLater, rfl⟩ := h
      simp only [validateContiguousChain, bind_eq_ok_iff, rejectIf_eq_ok_iff, ne_eq,
        not_or, not_not] at hChain
      obtain ⟨_, ⟨hNumber, -⟩, hRest⟩ := hChain
      rw [sequence_of_validateEvent hSequence, Number.integer.injEq] at hNumber
      rw [ih hLater hRest, hNumber, List.length_cons, List.range'_succ, List.map_cons]
      rfl

end Chains

/-! ### What the operations leave alone -/

/-- Nothing changes but the projection of one request, its sync state, its request
for a resync and its decisions. -/
structure LeavesOthers (key : RequestKey) (before after : Tables) : Prop where
  requestEnvelopes : after.requestEnvelopes = before.requestEnvelopes
  credentialBindings : after.credentialBindings = before.credentialBindings
  decisions : after.decisions.filter (fun row => decide (row.key ≠ key)) =
    before.decisions.filter fun row => decide (row.key ≠ key)
  lifecycleProjections :
    after.lifecycleProjections.filter (fun row => decide (row.key ≠ key)) =
      before.lifecycleProjections.filter fun row => decide (row.key ≠ key)
  projectionSyncStates :
    after.projectionSyncStates.filter (fun row => decide (row.key ≠ key)) =
      before.projectionSyncStates.filter fun row => decide (row.key ≠ key)
  outbox : after.outbox.filter (fun row => decide (¬ row.AsksResync key)) =
    before.outbox.filter fun row => decide (¬ row.AsksResync key)

theorem LeavesOthers.refl (key : RequestKey) (tables : Tables) :
    LeavesOthers key tables tables :=
  ⟨rfl, rfl, rfl, rfl, rfl, rfl⟩

theorem LeavesOthers.trans {key : RequestKey} {first second third : Tables}
    (h : LeavesOthers key first second) (h' : LeavesOthers key second third) :
    LeavesOthers key first third :=
  ⟨h'.requestEnvelopes.trans h.requestEnvelopes,
    h'.credentialBindings.trans h.credentialBindings, h'.decisions.trans h.decisions,
    h'.lifecycleProjections.trans h.lifecycleProjections,
    h'.projectionSyncStates.trans h.projectionSyncStates, h'.outbox.trans h.outbox⟩

/-- The sync state of a request. -/
def Tables.syncState? (tables : Tables) (key : RequestKey) : Option SyncStateRow :=
  Table.lookup SyncStateRow.key key tables.projectionSyncStates

theorem LeavesOthers.projectionOf {key other : RequestKey} {before after : Tables}
    (h : LeavesOthers key before after) (hOther : key ≠ other) :
    after.projectionOf other = before.projectionOf other := by
  rw [Tables.projectionOf, Tables.projectionOf, ← Table.select_filter_ne hOther,
    h.lifecycleProjections, Table.select_filter_ne hOther]

theorem LeavesOthers.syncState {key other : RequestKey} {before after : Tables}
    (h : LeavesOthers key before after) (hOther : key ≠ other) :
    after.syncState? other = before.syncState? other := by
  rw [Tables.syncState?, Tables.syncState?, ← Table.head?_select, ← Table.head?_select,
    ← Table.select_filter_ne hOther, h.projectionSyncStates,
    Table.select_filter_ne hOther]

section Statements

variable {key : RequestKey} {before after : Database}

/-- An upsert keeps the projections, and decides the sync state of its request. -/
theorem upsertSyncState_eq_ok {row : SyncStateRow} {change : SyncStateRow → SyncStateRow}
    {done : Unit} (h : upsertSyncState row change before = .ok (done, after))
    (hChange : ∀ found, (change found).key = found.key) :
    LeavesOthers row.key before.toTables after.toTables ∧
      after.projectionOf row.key = before.projectionOf row.key ∧
      after.syncState? row.key =
        some ((before.syncState? row.key).elim row change) := by
  have hAfter := execute_eq_ok h
  rw [hAfter]
  refine ⟨⟨rfl, rfl, rfl, rfl, ?_, rfl⟩, rfl, ?_⟩
  · show List.filter _ (if _ then _ else _) = _
    split
    · exact Table.filter_update_ne hChange
    · rw [List.filter_append]
      simp
  · rw [Tables.syncState?]
    show Table.lookup SyncStateRow.key row.key (if _ then _ else _) = _
    rw [Table.lookup_upsert fun found hFound => (hChange found).trans hFound, if_pos rfl]
    rfl

/-- A freeze adds no row; a new sync state has verified nothing. -/
theorem freezeAndQueueResync_eq_ok [Cryptography] {digest : Bytes} {done : Unit}
    (h : freezeAndQueueResync key digest before = .ok (done, after)) :
    LeavesOthers key before.toTables after.toTables ∧
      after.projectionOf key = before.projectionOf key ∧
      after.syncState? key = some ((before.syncState? key).elim
        { key, frozenGap := true, lastVerifiedSequence := -1 }
        fun row => { row with frozenGap := true }) := by
  rw [freezeAndQueueResync, run_bind_eq_ok_iff] at h
  obtain ⟨_, between, hUpsert, hQueue⟩ := h
  obtain ⟨hLeaves, hRows, hState⟩ := upsertSyncState_eq_ok hUpsert fun _ => rfl
  have hAfter := execute_eq_ok hQueue
  have hQueued : LeavesOthers key between.toTables after.toTables := by
    rw [hAfter]
    refine ⟨rfl, rfl, rfl, rfl, rfl, ?_⟩
    show List.filter _ (if _ then _ else _) = _
    split
    · rfl
    · rw [List.filter_append]
      simp [OutboxRow.AsksResync]
  refine ⟨hLeaves.trans hQueued, ?_, ?_⟩
  · rw [hAfter]
    exact hRows
  · rw [hAfter]
    exact hState

/-- A verified sequence is counted, and lifts a freeze. -/
theorem markVerified_eq_ok {sequence : Int} {done : Unit}
    (h : markVerified key sequence before = .ok (done, after)) :
    LeavesOthers key before.toTables after.toTables ∧
      after.projectionOf key = before.projectionOf key ∧
      (after.syncState? key).map SyncStateRow.lastVerifiedSequence = some sequence := by
  obtain ⟨hLeaves, hRows, hState⟩ := upsertSyncState_eq_ok h fun _ => rfl
  refine ⟨hLeaves, hRows, ?_⟩
  change after.syncState? key = _ at hState
  rw [hState]
  cases before.syncState? key with
  | none => rfl
  | some found => rfl

theorem insertProjection_eq_ok {sequence : Int} {event : VerifiedLifecycleEvent}
    {frozenGap : Bool} {done : Unit}
    (h : insertProjection key sequence event frozenGap before = .ok (done, after)) :
    LeavesOthers key before.toTables after.toTables ∧
      after.projectionOf key = before.projectionOf key ++
        [{ key, brokerSequence := sequence, eventDigest := event.eventDigest
           state := event.state, frozenGap }] ∧
      after.syncState? key = before.syncState? key := by
  have hAfter := execute_eq_ok h
  rw [hAfter]
  refine ⟨⟨rfl, rfl, rfl, ?_, rfl, rfl⟩, ?_, rfl⟩
  · rw [List.filter_append]
    simp
  · rw [Tables.projectionOf, Table.select_append, if_pos rfl]
    rfl

/-- The events of a resync are inserted as the rows of a chain. -/
theorem insertProjections_eq_ok {index : Nat} {events : List VerifiedLifecycleEvent}
    {done : Unit}
    (h : insertProjections key
      (((List.range' index events.length).map Int.ofNat).zip events) before =
        .ok (done, after)) :
    LeavesOthers key before.toTables after.toTables ∧
      after.projectionOf key =
        before.projectionOf key ++ chainRows key index events ∧
      after.syncState? key = before.syncState? key := by
  induction events generalizing index before done with
  | nil =>
      rw [List.zip_nil_right, insertProjections, run_pure_eq_ok_iff] at h
      rw [← h.2, chainRows, List.append_nil]
      exact ⟨.refl _ _, rfl, rfl⟩
  | cons event events ih =>
      rw [List.length_cons, List.range'_succ, List.map_cons, List.zip_cons_cons,
        insertProjections, run_bind_eq_ok_iff] at h
      obtain ⟨_, between, hInsert, hRest⟩ := h
      obtain ⟨hLeaves, hRows, hState⟩ := insertProjection_eq_ok hInsert
      obtain ⟨hLeaves', hRows', hState'⟩ := ih hRest
      refine ⟨hLeaves.trans hLeaves', ?_, hState'.trans hState⟩
      rw [hRows', hRows, List.append_assoc, chainRows]
      rfl

/-- A resync replaces the rows of its request by those of the chain, and counts
them. -/
theorem replaceFromVerifiedResync_eq_ok {scope : TenantScope} {requestPublicId : String}
    {events : List VerifiedLifecycleEvent} {done : Unit}
    (h : replaceFromVerifiedResync scope requestPublicId events before =
      .ok (done, after)) :
    ∃ key, scopedRequestForUpdate scope requestPublicId before.toTables = .ok key ∧
      events ≠ [] ∧ validateContiguousChain 0 none events = .ok () ∧
      LeavesOthers key before.toTables after.toTables ∧
      after.projectionOf key = chainRows key 0 events ∧
      (after.syncState? key).map SyncStateRow.lastVerifiedSequence =
        some ((events.length : Int) - 1) := by
  obtain ⟨⟨-, hSome, hChain⟩, sequences, key, deleted, inserted, marked, hSequences,
    hKey, hDelete, hInsert, hMark, hClear⟩ := replaceFromVerifiedResync_runs.mp h
  have hNumbers := validateResync_eq_ok hSequences hChain
  subst hNumbers
  have hDeleted := execute_eq_ok hDelete
  have hAfter := execute_eq_ok hClear
  have hEmptied : LeavesOthers key before.toTables deleted.toTables ∧
      deleted.projectionOf key = [] ∧
      deleted.syncState? key = before.syncState? key := by
    rw [hDeleted]
    refine ⟨⟨rfl, rfl, rfl, ?_, rfl, rfl⟩, ?_, rfl⟩
    · rw [List.filter_filter]
      simp
    · rw [Tables.projectionOf, Table.select, List.filter_filter]
      simp
  obtain ⟨hLeaves, hRows, hState⟩ := insertProjections_eq_ok hInsert
  obtain ⟨hLeaves', hRows', hState'⟩ := markVerified_eq_ok hMark
  have hCleared : LeavesOthers key marked.toTables after.toTables := by
    rw [hAfter]
    refine ⟨rfl, rfl, rfl, rfl, rfl, ?_⟩
    rw [List.filter_filter]
    simp
  refine ⟨key, hKey, hSome, hChain,
    ((hEmptied.1.trans hLeaves).trans hLeaves').trans hCleared, ?_, ?_⟩
  · rw [hAfter]
    show marked.projectionOf key = _
    rw [hRows', hRows, hEmptied.2.1, List.nil_append]
  · -- The sync state counts up to the last event of the list.
    have hLast : (((List.range' 0 events.length).map Int.ofNat).getLast?.getD 0) =
        (events.length : Int) - 1 := by
      have hLength := List.length_pos_iff.mpr hSome
      rw [List.getLast?_map, List.getLast?_range']
      rw [if_neg (by omega)]
      simp
      omega
    rw [hAfter]
    exact hState'.trans (congrArg some hLast)

end Statements

/-! ### The history of a request -/

/-- The tables hold the chain of these events for a request: its rows are theirs, and
its sync state, once there is one, counts them. -/
structure Chained (tables : Tables) (key : RequestKey)
    (events : List VerifiedLifecycleEvent) : Prop where
  valid : validateContiguousChain 0 none events = .ok ()
  rows : tables.projectionOf key = chainRows key 0 events
  counted : ∀ state, tables.syncState? key = some state →
    state.lastVerifiedSequence = (events.length : Int) - 1
  uncounted : tables.syncState? key = none → events = []

/-- The call accepts the event for the request: as the next one, or in a resync. -/
def Accepts [Cryptography] (key : RequestKey) (event : VerifiedLifecycleEvent)
    (database : Database) : Call → Prop
  | .applyVerifiedEvent scope applied =>
      applied = event ∧
        scopedRequestForUpdate scope event.requestPublicId database.toTables = .ok key ∧
        ∃ after, applyVerifiedEvent scope event database = .ok (.applied, after)
  | .replaceFromVerifiedResync scope requestPublicId events =>
      event ∈ events ∧
        (Call.replaceFromVerifiedResync scope requestPublicId events).Resyncs key
          database
  | .recordVerifiedCeremony _ _ _ _ => False

/-- An event with the sequence and the digest of a stored row changes nothing. -/
def IgnoresDuplicate [Cryptography] (database : Database) (call : Call) : Prop :=
  ∀ scope event key row, call = .applyVerifiedEvent scope event →
    scopedRequestForUpdate scope event.requestPublicId database.toTables = .ok key →
    row ∈ database.projectionOf key → event.sequence = .integer row.brokerSequence →
    event.eventDigest = row.eventDigest → database.step call = database

/-- The call names this request under its scope. -/
def Call.Names (key : RequestKey) (tables : Tables) : Call → Prop
  | .applyVerifiedEvent scope event =>
      key.tenantId = scope.tenantId ∧
        scopedRequestForUpdate scope event.requestPublicId tables = .ok key
  | .replaceFromVerifiedResync scope requestPublicId _ =>
      key.tenantId = scope.tenantId ∧
        scopedRequestForUpdate scope requestPublicId tables = .ok key
  | .recordVerifiedCeremony scope requestPublicId _ _ =>
      key.tenantId = scope.tenantId ∧
        scopedRequestForUpdate scope requestPublicId tables = .ok key

/-- The call changes nothing, or nothing outside the request that it names. -/
def KeepsOthers [Cryptography] (database : Database) (call : Call) : Prop :=
  database.step call = database ∨
    ∃ key, call.Names key database.toTables ∧
      LeavesOthers key database.toTables (database.step call).toTables

theorem scopedRequest_tenant {scope : TenantScope} {requestPublicId : String}
    {tables : Tables} {key : RequestKey}
    (h : scopedRequestForUpdate scope requestPublicId tables = .ok key) :
    key.tenantId = scope.tenantId := by
  unfold scopedRequestForUpdate at h
  split at h
  · rw [← Except.ok.inj h]
  · cases h

section History

variable [Cryptography] {key : RequestKey} {before after : Database}
  {events : List VerifiedLifecycleEvent}

omit [Cryptography] in
theorem Chained.of_same {tables : Tables} (h : Chained before.toTables key events)
    (hRows : tables.projectionOf key = before.projectionOf key)
    (hState : tables.syncState? key = before.syncState? key) :
    Chained tables key events :=
  ⟨h.valid, hRows.trans h.rows, fun state hFound => h.counted state (hState ▸ hFound),
    fun hNone => h.uncounted (hState ▸ hNone)⟩

omit [Cryptography] in
/-- The sync state counts the events when it has just been set to their number. -/
theorem Chained.of_counted {tables : Tables}
    (hValid : validateContiguousChain 0 none events = .ok ())
    (hRows : tables.projectionOf key = chainRows key 0 events)
    (hState : (tables.syncState? key).map SyncStateRow.lastVerifiedSequence =
      some ((events.length : Int) - 1)) : Chained tables key events := by
  refine ⟨hValid, hRows, ?_, ?_⟩
  · intro state hFound
    rw [hFound] at hState
    exact Option.some.inj hState
  · intro hNone
    rw [hNone] at hState
    cases hState

omit [Cryptography] in
/-- An event that follows the rows makes the chain longer. -/
theorem Chained.extend {between : Database} {event : VerifiedLifecycleEvent}
    {sequence : Int} (h : Chained before.toTables key events)
    (hSequence : validateEvent event = .ok sequence)
    (hFollows : Follows (before.projectionOf key) sequence event.previousEventDigest)
    (hInsert : insertProjection key sequence event false before = .ok ((), between))
    (hMark : markVerified key sequence between = .ok ((), after)) :
    Chained after.toTables key (events ++ [event]) := by
  rw [h.rows, follows_chainRows_iff] at hFollows
  obtain ⟨hNext, hPrevious⟩ := hFollows
  obtain ⟨-, hRows, -⟩ := insertProjection_eq_ok hInsert
  obtain ⟨-, hRows', hState⟩ := markVerified_eq_ok hMark
  apply Chained.of_counted
  · rw [validateContiguousChain_concat, Nat.zero_add, ← hNext]
    exact ⟨h.valid, sequence_of_validateEvent hSequence, hPrevious⟩
  · rw [hRows', hRows, h.rows, chainRows_concat, Nat.zero_add, hNext]
  · rw [hState, hNext, List.length_append, List.length_singleton]
    simp

/-- A freeze keeps the chain; the sync state that it may create has counted no
event. -/
theorem Chained.freeze {digest : Bytes} (h : Chained before.toTables key events)
    (hFreeze : freezeAndQueueResync key digest before = .ok ((), after)) :
    Chained after.toTables key events := by
  obtain ⟨-, hRows, hState⟩ := freezeAndQueueResync_eq_ok hFreeze
  apply Chained.of_counted h.valid (hRows.trans h.rows)
  rw [hState]
  cases hFound : before.syncState? key with
  | none =>
      rw [h.uncounted hFound]
      rfl
  | some state => exact congrArg some (h.counted state hFound)

theorem applyVerifiedEvent_leaves {scope : TenantScope} {event : VerifiedLifecycleEvent}
    {result : ProjectionApplyResult}
    (h : applyVerifiedEvent scope event before = .ok (result, after)) :
    ∃ key, scopedRequestForUpdate scope event.requestPublicId before.toTables =
        .ok key ∧ LeavesOthers key before.toTables after.toTables := by
  obtain ⟨key, sequence, -, hKey, ⟨-, rfl⟩ | ⟨-, hFreeze⟩ |
    ⟨-, -, between, hInsert, hMark⟩⟩ := applyVerifiedEvent_eq_ok h
  · exact ⟨key, hKey, .refl _ _⟩
  · exact ⟨key, hKey, (freezeAndQueueResync_eq_ok hFreeze).1⟩
  · exact ⟨key, hKey,
      (insertProjection_eq_ok hInsert).1.trans (markVerified_eq_ok hMark).1⟩

/-- A call keeps the chain of a request, extends it or replaces it. -/
theorem Chained.perform {call : Call} (h : Chained before.toTables key events)
    (hPerform : call.perform before = .ok after) :
    ∃ later, Chained after.toTables key later ∧
      ∀ event ∈ later, event ∈ events ∨ Accepts key event before call := by
  cases call with
  | applyVerifiedEvent scope event =>
      obtain ⟨⟨result, _⟩, hApply, rfl⟩ := map_eq_ok_iff.mp hPerform
      obtain ⟨found, hFound, hLeaves⟩ := applyVerifiedEvent_leaves hApply
      by_cases hKey : found = key
      · subst hKey
        obtain ⟨again, sequence, hSequence, hAgain, ⟨-, rfl⟩ | ⟨-, hFreeze⟩ |
          ⟨hResult, hFollows, between, hInsert, hMark⟩⟩ :=
            applyVerifiedEvent_eq_ok hApply
        · exact ⟨events, h, fun _ hEvent => Or.inl hEvent⟩
        · cases hFound.symm.trans hAgain
          exact ⟨events, h.freeze hFreeze, fun _ hEvent => Or.inl hEvent⟩
        · cases hFound.symm.trans hAgain
          refine ⟨events ++ [event], h.extend hSequence hFollows hInsert hMark, ?_⟩
          intro other hOther
          rcases List.mem_append.mp hOther with hOld | hNew
          · exact Or.inl hOld
          · rw [List.mem_singleton.mp hNew]
            rw [hResult] at hApply
            exact Or.inr ⟨rfl, hFound, _, hApply⟩
      · exact ⟨events, h.of_same (hLeaves.projectionOf hKey) (hLeaves.syncState hKey),
          fun _ hEvent => Or.inl hEvent⟩
  | replaceFromVerifiedResync scope requestPublicId list =>
      obtain ⟨⟨_, _⟩, hReplace, rfl⟩ := map_eq_ok_iff.mp hPerform
      obtain ⟨found, hFound, -, hChain, hLeaves, hRows, hState⟩ :=
        replaceFromVerifiedResync_eq_ok hReplace
      by_cases hKey : found = key
      · subst hKey
        exact ⟨list, .of_counted hChain hRows hState,
          fun event hEvent => Or.inr ⟨hEvent, hFound, _, hReplace⟩⟩
      · exact ⟨events, h.of_same (hLeaves.projectionOf hKey) (hLeaves.syncState hKey),
          fun _ hEvent => Or.inl hEvent⟩
  | recordVerifiedCeremony scope requestPublicId ceremony decisionPublicId =>
      obtain ⟨⟨_, _⟩, hRecord, rfl⟩ := map_eq_ok_iff.mp hPerform
      obtain ⟨found, added, -, -, -, hAfter⟩ := recordVerifiedCeremony_eq_ok hRecord
      refine ⟨events, h.of_same ?_ ?_, fun _ hEvent => Or.inl hEvent⟩
      · rw [hAfter]
        rfl
      · rw [hAfter]
        rfl

/-- After any calls, the chain of a request consists of events that they accepted. -/
theorem chained_of_run {start : Database} (hRows : start.lifecycleProjections = [])
    (hStates : start.projectionSyncStates = []) (calls : List Call) (key : RequestKey) :
    ∃ events, Chained (run Database.step start calls).toTables key events ∧
      ∀ event ∈ events, Occurs Database.step start calls (Accepts key event) := by
  induction calls using List.reverseRecOn with
  | nil =>
      refine ⟨[], ⟨rfl, ?_, ?_, fun _ => rfl⟩, nofun⟩
      · rw [run_nil, Tables.projectionOf, hRows]
        rfl
      · intro state hState
        rw [run_nil, Tables.syncState?, hStates] at hState
        cases hState
  | append_singleton calls call ih =>
      obtain ⟨events, hChained, hAccepted⟩ := ih
      rw [run_concat, Database.step]
      cases hPerform : call.perform (run Database.step start calls) with
      | error message =>
          exact ⟨events, hChained, fun event hEvent => (hAccepted event hEvent).concat⟩
      | ok after =>
          obtain ⟨later, hLater, hOrigin⟩ := hChained.perform hPerform
          refine ⟨later, hLater, ?_⟩
          intro event hEvent
          rcases hOrigin event hEvent with hOld | hNew
          · exact (hAccepted event hOld).concat
          · exact .last hNew

omit [Cryptography] in
/-- Two rows of a request have different sequences. -/
theorem eq_of_sequence {database : Database} {first second : ProjectionRow}
    (hFirst : first ∈ database.projectionOf key)
    (hSecond : second ∈ database.projectionOf key)
    (hSame : first.brokerSequence = second.brokerSequence) : first = second := by
  obtain ⟨hStored, hKey⟩ := Table.mem_select_iff.mp hFirst
  obtain ⟨hStored', hKey'⟩ := Table.mem_select_iff.mp hSecond
  apply List.inj_on_of_nodup_map database.constraints.projectionSequence hStored hStored'
  rw [hKey, hKey', hSame]

/-- A stored event is recognized. -/
theorem ignoresDuplicate (database : Database) (call : Call) :
    IgnoresDuplicate database call := by
  intro scope event key row hCall hKey hRow hSequence hDigest
  subst hCall
  rw [Database.step, Call.perform]
  cases hApply : applyVerifiedEvent scope event database with
  | error message => rfl
  | ok outcome =>
      obtain ⟨result, after⟩ := outcome
      obtain ⟨found, sequence, hValid, hFound, hOutcome⟩ :=
        applyVerifiedEvent_eq_ok hApply
      simp only [applyVerifiedEvent, apply, run_bind_eq_ok_iff, query_eq_ok_iff] at hApply
      obtain ⟨number, _, ⟨hNumber, rfl⟩, again, _, ⟨hAgain, rfl⟩, rows, _,
        ⟨hRows, rfl⟩, hApply⟩ := hApply
      have hOwn := sequence_of_validateEvent hNumber
      rw [hSequence, Number.integer.injEq] at hOwn
      cases hAgain.symm.trans hKey
      cases hRows
      have hStored : ∃ existing, (database.projectionOf key).find?
          (fun row => decide (row.brokerSequence = number)) = some existing := by
        rw [← Option.isSome_iff_exists, List.find?_isSome]
        exact ⟨row, hRow, decide_eq_true hOwn⟩
      obtain ⟨existing, hExisting⟩ := hStored
      have hSameRow : existing = row := by
        apply eq_of_sequence (List.mem_of_find?_eq_some hExisting) hRow
        have hFits := List.find?_some hExisting
        have hTheirs : existing.brokerSequence = number := of_decide_eq_true hFits
        rw [hTheirs, hOwn]
      rw [hExisting] at hApply
      dsimp only at hApply
      rw [hSameRow, if_pos hDigest.symm, run_pure_eq_ok_iff] at hApply
      rw [← hApply.2]
      rfl

theorem keepsOthers (database : Database) (call : Call) :
    KeepsOthers database call := by
  unfold KeepsOthers Database.step
  cases hPerform : call.perform database with
  | error message => exact Or.inl rfl
  | ok after =>
      refine Or.inr ?_
      cases call with
      | applyVerifiedEvent scope event =>
          obtain ⟨⟨_, _⟩, hApply, rfl⟩ := map_eq_ok_iff.mp hPerform
          obtain ⟨key, hKey, hLeaves⟩ := applyVerifiedEvent_leaves hApply
          exact ⟨key, ⟨scopedRequest_tenant hKey, hKey⟩, hLeaves⟩
      | replaceFromVerifiedResync scope requestPublicId events =>
          obtain ⟨⟨_, _⟩, hReplace, rfl⟩ := map_eq_ok_iff.mp hPerform
          obtain ⟨key, hKey, -, -, hLeaves, -⟩ :=
            replaceFromVerifiedResync_eq_ok hReplace
          exact ⟨key, ⟨scopedRequest_tenant hKey, hKey⟩, hLeaves⟩
      | recordVerifiedCeremony scope requestPublicId ceremony decisionPublicId =>
          obtain ⟨⟨_, _⟩, hRecord, rfl⟩ := map_eq_ok_iff.mp hPerform
          obtain ⟨key, added, hKey, -, hAdded, hAfter⟩ :=
            recordVerifiedCeremony_eq_ok hRecord
          refine ⟨key, ⟨scopedRequest_tenant hKey, hKey⟩, ?_⟩
          rw [hAfter]
          refine ⟨rfl, rfl, ?_, rfl, rfl, rfl⟩
          rw [List.filter_append]
          simp [hAdded]

/-- In every run from empty tables, each request has the rows of one contiguous chain
of accepted events, which its sync state counts; a stored event changes nothing, and
no call changes a row of another request or of another tenant. -/
theorem projection_chains (start : Database) (hRows : start.lifecycleProjections = [])
    (hStates : start.projectionSyncStates = []) (calls : List Call) :
    (∀ earlier key, earlier <+: calls →
      ∃ events, Chained (run Database.step start earlier).toTables key events ∧
        ∀ event ∈ events, Occurs Database.step start earlier (Accepts key event)) ∧
      Throughout Database.step start calls fun database call =>
        IgnoresDuplicate database call ∧ KeepsOthers database call := by
  refine ⟨fun earlier key _ => chained_of_run hRows hStates earlier key, ?_⟩
  intro earlier call later _
  exact ⟨ignoresDuplicate _ _, keepsOthers _ _⟩

end History

/-- The sample request after a gap, two events in order and a duplicate. -/
def orderedCalls : List Call :=
  [.applyVerifiedEvent sampleScope (sampleEvent 3 1),
    .applyVerifiedEvent sampleScope (sampleEvent 0 2),
    .applyVerifiedEvent sampleScope
      { sampleEvent 1 3 with previousEventDigest := some (ByteArr.fill 32 2).val },
    .applyVerifiedEvent sampleScope (sampleEvent 0 2)]

/-- The sample request has a chain of two events. -/
theorem projection_chains_sample :
    ∃ events, events.length = 2 ∧
      Chained (run (@Database.step keyedHashCryptography) sampleDatabase
        orderedCalls).toTables sampleKey events := by
  have hLength : ((run (@Database.step keyedHashCryptography) sampleDatabase
      orderedCalls).projectionOf sampleKey).length = 2 := by
    decide +kernel
  obtain ⟨events, hChained, -⟩ := (@projection_chains keyedHashCryptography
    sampleDatabase rfl rfl orderedCalls).1 orderedCalls sampleKey List.prefix_rfl
  rw [hChained.rows, length_chainRows] at hLength
  exact ⟨events, hLength, hChained⟩

end Hosted
end RootPermit
