import RootPermit.Hosted.Delivery
import RootPermit.Hosted.ProjectionHistory

/-!
# History across a resync

A resync should never lose or contradict an event that was applied before it.  Both
projections check the list that they are given and nothing of what they hold, and the
guard of the relay takes an empty list as well (`resync_loses_history`).  A resync keeps
the history exactly when a list that passes the checks is not empty and repeats what was
applied (`resync_keeps_history_iff`).
-/

namespace RootPermit
namespace Hosted

open Foundation

/-! ### The guard of the relay -/

namespace Relay
namespace ProjectionChain

/-- What can happen to a chain. -/
inductive Call where
  | ingest (event : VerifiedLifecycleEvent)
  | restoreContiguous (events : List VerifiedLifecycleEvent)

def step (chain : ProjectionChain) : Call → ProjectionChain
  | .ingest event => chain.receive event
  | .restoreContiguous events => (chain.restoreContiguous events).2

/-- The sequences of the events count up from this one. -/
def CountsFrom (first : UInt64) : List VerifiedLifecycleEvent → Prop
  | [] => True
  | event :: events =>
      event.sequence = first ∧ CountsFrom (saturatingSucc first) events

/-- The digest that the last event with this sequence has in a list. -/
def digestOf (events : List VerifiedLifecycleEvent) (sequence : UInt64) :
    Option (ByteArr 32) :=
  (events.reverse.find? fun event => decide (event.sequence = sequence)).map
    VerifiedLifecycleEvent.eventDigest

/-- A list is not empty and repeats everything that the chain has applied. -/
def RepeatedBy (chain : ProjectionChain) (events : List VerifiedLifecycleEvent) : Prop :=
  events ≠ [] ∧ ∀ sequence digest, chain.applied sequence = some digest →
    digestOf events sequence = some digest

/-- A restore that succeeds had a list, keeps what was applied and expects no earlier
event; one that fails changes nothing. -/
def RestoreKeepsHistory (chain : ProjectionChain)
    (events : List VerifiedLifecycleEvent) : Prop :=
  ((chain.restoreContiguous events).1 = true → events ≠ [] ∧
    (∀ sequence digest, chain.applied sequence = some digest →
      (chain.restoreContiguous events).2.applied sequence = some digest) ∧
    chain.expected ≤ (chain.restoreContiguous events).2.expected) ∧
  ((chain.restoreContiguous events).1 = false →
    (chain.restoreContiguous events).2 = chain)

variable {chain : ProjectionChain} {events : List VerifiedLifecycleEvent}
  {event : VerifiedLifecycleEvent}

/-- A list is ingested when it counts up from the expected sequence. -/
theorem ingestAll_eq_some_iff (hOpen : chain.frozenGap = false)
    {next : ProjectionChain} :
    ingestAll chain events = some next ↔
      CountsFrom chain.expected events ∧ next = events.foldl extended chain := by
  induction events generalizing chain with
  | nil => simp [ingestAll, CountsFrom, eq_comm]
  | cons event events ih =>
      rw [ingestAll, CountsFrom, List.foldl_cons]
      have hAnswer := answers_ingest chain event
      generalize chain.ingest event = answer at hAnswer
      cases hAnswer with
      | frozen hFrozen =>
          rw [hOpen] at hFrozen
          cases hFrozen
      | applied _ hNext =>
          have hRest : ingestAll (chain.extended event) events = some next ↔ _ :=
            ih hOpen
          rw [expected_extended] at hRest
          simp only [hRest, hNext, true_and]
      | duplicate _ hPast =>
          have hOther : event.sequence ≠ chain.expected := fun hSame =>
            absurd (hSame ▸ hPast) (UInt64.lt_irrefl _)
          simp [hOther]
      | freezes _ hOther => simp [hOther]

/-- A list builds the chain of the last digests of its sequences. -/
theorem applied_foldl (sequence : UInt64) :
    (events.foldl extended chain).applied sequence =
      (digestOf events sequence).or (chain.applied sequence) := by
  induction events generalizing chain with
  | nil => rfl
  | cons event events ih =>
      rw [List.foldl_cons, ih, digestOf, digestOf, List.reverse_cons, List.find?_append,
        Option.map_or, Option.or_assoc]
      congr 1
      rw [extended, List.find?_singleton]
      by_cases hSame : sequence = event.sequence
      · simp [hSame]
      · simp [hSame, Ne.symm hSame]

/-- The outcome of a restore. -/
theorem restoreContiguous_eq (chain : ProjectionChain)
    (events : List VerifiedLifecycleEvent) :
    (CountsFrom 1 events ∧
      chain.restoreContiguous events = (true, events.foldl extended empty)) ∨
    (¬ CountsFrom 1 events ∧ chain.restoreContiguous events = (false, chain)) := by
  have hAll : ∀ next, ingestAll empty events = some next ↔
      CountsFrom 1 events ∧ next = events.foldl extended empty :=
    fun next => ingestAll_eq_some_iff rfl
  unfold restoreContiguous
  cases hIngest : ingestAll empty events with
  | some next =>
      obtain ⟨hCounts, hNext⟩ := (hAll next).mp hIngest
      rw [hNext]
      exact Or.inl ⟨hCounts, rfl⟩
  | none =>
      refine Or.inr ⟨fun hCounts => ?_, rfl⟩
      rw [(hAll _).mpr ⟨hCounts, rfl⟩] at hIngest
      cases hIngest

/-- Below the maximum, the expected sequence comes right after what was applied. -/
structure Steady (chain : ProjectionChain) : Prop where
  last : ∀ sequence : UInt64, 0 < sequence.toNat →
    sequence.toNat + 1 = chain.expected.toNat → chain.applied sequence ≠ none
  below : ∀ sequence, chain.applied sequence ≠ none →
    sequence.toNat < chain.expected.toNat ∨ chain.expected.toNat = 2 ^ 64 - 1

theorem Steady.empty : Steady empty := by
  refine ⟨?_, ?_⟩
  · intro sequence hPos hNext
    have hOne : ProjectionChain.empty.expected.toNat = 1 := rfl
    omega
  · intro sequence hApplied
    exact absurd rfl hApplied

theorem Steady.extended (h : Steady chain) (hNext : event.sequence = chain.expected) :
    Steady (chain.extended event) := by
  have hAt : ∀ sequence, (chain.extended event).applied sequence =
      if sequence = chain.expected then some event.eventDigest
      else chain.applied sequence := by
    intro sequence
    rw [ProjectionChain.extended, hNext]
  by_cases hMax : chain.expected.toNat = 2 ^ 64 - 1
  · -- The counter does not move any more.
    have hSame : (chain.extended event).expected.toNat = chain.expected.toNat := by
      rw [expected_extended, toNat_saturatingSucc_of_max hMax]
    refine ⟨?_, fun _ _ => Or.inr (hSame.trans hMax)⟩
    intro sequence hPos hLast
    rw [hSame] at hLast
    rw [hAt, if_neg]
    · exact h.last sequence hPos hLast
    · rintro rfl
      omega
  · have hSmall := chain.expected.toNat_lt
    have hGrown : (chain.extended event).expected.toNat = chain.expected.toNat + 1 := by
      rw [expected_extended, toNat_saturatingSucc (by omega)]
    refine ⟨?_, ?_⟩
    · intro sequence _ hLast
      have hSame : sequence = chain.expected := by
        apply UInt64.toNat_inj.mp
        omega
      rw [hAt, if_pos hSame]
      exact Option.some_ne_none _
    · intro sequence hApplied
      rw [hAt] at hApplied
      by_cases hSame : sequence = chain.expected
      · exact Or.inl (by rw [hSame]; omega)
      · rw [if_neg hSame] at hApplied
        rcases h.below sequence hApplied with hBelow | hFull
        · exact Or.inl (by omega)
        · exact absurd hFull hMax

theorem Steady.receive (h : Steady chain) (event : VerifiedLifecycleEvent) :
    Steady (chain.receive event) := by
  have hAnswer := answers_ingest chain event
  unfold ProjectionChain.receive
  generalize chain.ingest event = answer at hAnswer
  cases hAnswer with
  | frozen => exact h
  | applied _ hNext => exact h.extended hNext
  | duplicate => exact h
  | freezes => exact ⟨h.last, h.below⟩

theorem Steady.foldl (h : Steady chain) (hCounts : CountsFrom chain.expected events) :
    Steady (events.foldl ProjectionChain.extended chain) := by
  induction events generalizing chain with
  | nil => exact h
  | cons event events ih =>
      obtain ⟨hNext, hRest⟩ := hCounts
      apply ih (h.extended hNext)
      rw [expected_extended]
      exact hRest

theorem Steady.step (chain : ProjectionChain) (call : Call) (h : Steady chain) :
    Steady (chain.step call) := by
  cases call with
  | ingest event => exact h.receive event
  | restoreContiguous events =>
      rw [ProjectionChain.step]
      rcases restoreContiguous_eq chain events with ⟨hCounts, hRestored⟩ | ⟨-, hFailed⟩
      · rw [hRestored]
        exact Steady.empty.foldl hCounts
      · rw [hFailed]
        exact h

/-- A chain that keeps what another one applied expects no earlier event. -/
theorem Steady.expected_le (h : Steady chain) {later : ProjectionChain}
    (hLater : Steady later)
    (hKept : ∀ sequence, chain.applied sequence ≠ none → later.applied sequence ≠ none) :
    chain.expected ≤ later.expected := by
  rw [UInt64.le_iff_toNat_le]
  have hPos := later.expected_pos
  have hSmall := chain.expected.toNat_lt
  by_cases hFirst : chain.expected.toNat ≤ 1
  · omega
  · have hBefore : (UInt64.ofNat (chain.expected.toNat - 1)).toNat =
        chain.expected.toNat - 1 :=
      UInt64.toNat_ofNat_of_lt' (show chain.expected.toNat - 1 < 2 ^ 64 by omega)
    have hApplied := h.last (UInt64.ofNat (chain.expected.toNat - 1))
      (by omega) (by omega)
    rcases hLater.below _ (hKept _ hApplied) with hBelow | hFull
    · omega
    · omega

/-- A restore of a steady chain keeps the history exactly when a list that counts up
repeats it. -/
theorem Steady.restoreKeepsHistory_iff (h : Steady chain) :
    chain.RestoreKeepsHistory events ↔
      (CountsFrom 1 events → chain.RepeatedBy events) := by
  unfold RestoreKeepsHistory RepeatedBy
  rcases restoreContiguous_eq chain events with ⟨hCounts, hRestored⟩ | ⟨hNot, hFailed⟩
  · have hApplied : ∀ sequence, (events.foldl ProjectionChain.extended
        ProjectionChain.empty).applied sequence = digestOf events sequence := by
      intro sequence
      rw [applied_foldl]
      exact Option.or_none
    rw [hRestored]
    simp only [true_imp_iff, Bool.true_eq_false, false_imp_iff, and_true, hCounts,
      hApplied]
    constructor
    · intro hKept
      exact ⟨hKept.1, hKept.2.1⟩
    · intro hRepeated
      refine ⟨hRepeated.1, hRepeated.2,
        h.expected_le (Steady.empty.foldl hCounts) ?_⟩
      intro sequence hBefore
      obtain ⟨digest, hDigest⟩ := Option.ne_none_iff_exists'.mp hBefore
      rw [hApplied, hRepeated.2 sequence digest hDigest]
      exact Option.some_ne_none _
  · rw [hFailed]
    simp [hNot]

end ProjectionChain
end Relay

/-! ### The projections of the service -/

/-- What a resync requires of its list: the checks of the operation, and digests that
the tables can hold. -/
structure AcceptedResync (scope : TenantScope) (requestPublicId : String)
    (events : List VerifiedLifecycleEvent) (tables : Tables) : Prop where
  publicId : requirePublicId requestPublicId = .ok ()
  nonempty : events ≠ []
  checked : ∃ sequences, validateResync requestPublicId events = .ok sequences
  contiguous : validateContiguousChain 0 none events = .ok ()
  request : ∃ key, scopedRequestForUpdate scope requestPublicId tables = .ok key
  digests : (events.map VerifiedLifecycleEvent.eventDigest).Nodup

/-- The sequence that a projection expects next. -/
def nextSequence (rows : List ProjectionRow) : Int :=
  (latest rows).elim 0 fun last => last.brokerSequence + 1

/-- A resync that succeeds had a list, keeps the sequence and the digest of every row
and expects no earlier event; one that throws changes nothing. -/
def ResyncKeepsHistory [Cryptography] (database : Database) (scope : TenantScope)
    (requestPublicId : String) (events : List VerifiedLifecycleEvent) : Prop :=
  match replaceFromVerifiedResync scope requestPublicId events database with
  | .ok (_, after) => events ≠ [] ∧ ∀ key,
      scopedRequestForUpdate scope requestPublicId database.toTables = .ok key →
      (∀ row ∈ database.projectionOf key, ∃ kept ∈ after.projectionOf key,
        kept.brokerSequence = row.brokerSequence ∧ kept.eventDigest = row.eventDigest) ∧
      nextSequence (database.projectionOf key) ≤ nextSequence (after.projectionOf key)
  | .error _ =>
      database.step (.replaceFromVerifiedResync scope requestPublicId events) = database

/-- A list repeats the sequence and the digest of every row of the request. -/
def RepeatsRows (scope : TenantScope) (requestPublicId : String)
    (events : List VerifiedLifecycleEvent) (tables : Tables) : Prop :=
  ∀ key, scopedRequestForUpdate scope requestPublicId tables = .ok key →
    ∀ row ∈ tables.projectionOf key, ∃ event ∈ events,
      event.sequence = .integer row.brokerSequence ∧
        event.eventDigest = row.eventDigest

section Success

variable {key : RequestKey} {before : Database}

/-- The constraints of every table but the projections stay. -/
theorem Constraints.withProjections {tables : Tables} (h : Constraints tables)
    {rows : List ProjectionRow}
    (hSequence : Table.Keyed (fun row => (row.key, row.brokerSequence)) rows)
    (hDigest : Table.Keyed (fun row => (row.key, row.eventDigest)) rows)
    (hChecks : ∀ row ∈ rows, 0 ≤ row.brokerSequence ∧ row.eventDigest.length = 32) :
    Constraints { tables with lifecycleProjections := rows } :=
  { h with projectionSequence := hSequence, projectionDigest := hDigest
           projectionChecks := hChecks }

theorem execute_ok {change : Tables → Tables} (h : Constraints (change before.toTables)) :
    ∃ after, execute change before = .ok ((), after) := by
  unfold execute
  rw [dif_pos h]
  exact ⟨_, rfl⟩

/-- The digests of the rows of one request are distinct. -/
theorem Database.nodup_digests (database : Database) (key : RequestKey) :
    ((database.projectionOf key).map ProjectionRow.eventDigest).Nodup := by
  have hPairs : ((database.projectionOf key).map
      fun row => (row.key, row.eventDigest)).Nodup :=
    (List.filter_sublist.map _).nodup database.constraints.projectionDigest
  have hSame : (database.projectionOf key).map (fun row => (row.key, row.eventDigest)) =
      ((database.projectionOf key).map ProjectionRow.eventDigest).map
        fun digest => (key, digest) := by
    rw [List.map_map]
    apply List.map_congr_left
    intro row hRow
    exact Prod.ext (Table.mem_select_iff.mp hRow).2 rfl
  rw [hSame] at hPairs
  exact List.Nodup.of_map _ hPairs

/-- A row with a new sequence and a new digest can be inserted. -/
theorem insertProjection_ok {sequence : Int} {event : VerifiedLifecycleEvent}
    (hChecks : 0 ≤ sequence ∧ event.eventDigest.length = 32)
    (hSequence : ∀ row ∈ before.projectionOf key, row.brokerSequence ≠ sequence)
    (hDigest : ∀ row ∈ before.projectionOf key, row.eventDigest ≠ event.eventDigest) :
    ∃ after, insertProjection key sequence event false before = .ok ((), after) := by
  have hNew : ∀ {κ : Type} (column : ProjectionRow → κ) (value : κ),
      (∀ row ∈ before.projectionOf key, column row ≠ value) →
      (key, value) ∉ before.lifecycleProjections.map fun row => (row.key, column row) := by
    intro κ column value hOther hMem
    obtain ⟨row, hRow, hSame⟩ := List.mem_map.mp hMem
    obtain ⟨hKey, hValue⟩ := Prod.mk.inj hSame
    exact hOther row (Table.mem_select_iff.mpr ⟨hRow, hKey⟩) hValue
  apply execute_ok
  apply before.constraints.withProjections
  · rw [Table.Keyed, List.map_append, List.map_singleton, ← List.concat_eq_append,
      List.nodup_concat]
    exact ⟨hNew _ _ hSequence, before.constraints.projectionSequence⟩
  · rw [Table.Keyed, List.map_append, List.map_singleton, ← List.concat_eq_append,
      List.nodup_concat]
    exact ⟨hNew _ _ hDigest, before.constraints.projectionDigest⟩
  · intro row hRow
    rcases List.mem_append.mp hRow with hOld | hAdded
    · exact before.constraints.projectionChecks row hOld
    · rw [List.mem_singleton.mp hAdded]
      exact hChecks

/-- A list of new sequences and digests can be inserted. -/
theorem insertProjections_ok {index : Nat} {events : List VerifiedLifecycleEvent}
    (hLengths : ∀ event ∈ events, event.eventDigest.length = 32)
    (hDistinct : (events.map VerifiedLifecycleEvent.eventDigest).Nodup)
    (hBelow : ∀ row ∈ before.projectionOf key, row.brokerSequence < index)
    (hDigests : ∀ row ∈ before.projectionOf key, ∀ event ∈ events,
      row.eventDigest ≠ event.eventDigest) :
    ∃ after, insertProjections key
      (((List.range' index events.length).map Int.ofNat).zip events) before =
        .ok ((), after) := by
  induction events generalizing index before with
  | nil => exact ⟨before, by rw [List.zip_nil_right]; rfl⟩
  | cons event events ih =>
      obtain ⟨hFirst, hRest⟩ := List.nodup_cons.mp hDistinct
      have hInsert : ∃ between, insertProjection key index event false before =
          .ok ((), between) := by
        apply insertProjection_ok
          ⟨Int.natCast_nonneg index, hLengths event List.mem_cons_self⟩
        · exact fun row hRow => ne_of_lt (hBelow row hRow)
        · exact fun row hRow => hDigests row hRow event List.mem_cons_self
      obtain ⟨between, hBetween⟩ := hInsert
      obtain ⟨-, hRows, -⟩ := insertProjection_eq_ok hBetween
      have hLater : ∃ after, insertProjections key
          (((List.range' (index + 1) events.length).map Int.ofNat).zip events)
            between = .ok ((), after) := by
        apply ih (fun other hOther => hLengths other (List.mem_cons_of_mem _ hOther))
          hRest
        · intro row hRow
          rw [hRows] at hRow
          push_cast
          rcases List.mem_append.mp hRow with hOld | hNew
          · have hSmall := hBelow row hOld
            omega
          · rw [List.mem_singleton.mp hNew]
            dsimp only
            omega
        · intro row hRow other hOther
          rw [hRows] at hRow
          rcases List.mem_append.mp hRow with hOld | hNew
          · exact hDigests row hOld other (List.mem_cons_of_mem _ hOther)
          · rw [List.mem_singleton.mp hNew]
            intro hSame
            have hAgain : other.eventDigest = event.eventDigest := hSame.symm
            apply hFirst
            rw [← hAgain]
            exact List.mem_map_of_mem hOther
      obtain ⟨after, hAfter⟩ := hLater
      refine ⟨after, ?_⟩
      rw [List.length_cons, List.range'_succ, List.map_cons, List.zip_cons_cons,
        insertProjections, run_bind_eq_ok_iff]
      exact ⟨(), between, hBetween, hAfter⟩

/-- A sequence can always be counted. -/
theorem markVerified_ok {sequence : Int} (hSequence : -1 ≤ sequence) :
    ∃ after, markVerified key sequence before = .ok ((), after) := by
  unfold markVerified upsertSyncState
  apply execute_ok
  refine { before.constraints with syncState := ?_, syncChecks := ?_ }
  · dsimp only
    split
    · rw [Table.Keyed, Table.map_update]
      · exact before.constraints.syncState
      · exact fun _ => rfl
    · rename_i hNone
      have hAbsent := Table.lookup_eq_none_iff.mp (Option.not_isSome_iff_eq_none.mp hNone)
      rw [Table.Keyed, List.map_append, List.map_singleton, ← List.concat_eq_append,
        List.nodup_concat]
      exact ⟨hAbsent, before.constraints.syncState⟩
  · intro row hRow
    dsimp only at hRow
    split at hRow
    · obtain ⟨old, hOld, hRow⟩ := List.mem_map.mp hRow
      split at hRow
      · rw [← hRow]
        exact hSequence
      · rw [← hRow]
        exact before.constraints.syncChecks old hOld
    · rcases List.mem_append.mp hRow with hOld | hNew
      · exact before.constraints.syncChecks row hOld
      · rw [List.mem_singleton.mp hNew]
        exact hSequence

theorem length_of_validateResync {requestPublicId : String} {sequences : List Int}
    {events : List VerifiedLifecycleEvent}
    (h : validateResync requestPublicId events = .ok sequences) :
    ∀ event ∈ events, event.eventDigest.length = 32 := by
  induction events generalizing sequences with
  | nil => nofun
  | cons first rest ih =>
      simp only [validateResync, validateEvent, bind_eq_ok_iff, rejectIf_eq_ok_iff,
        ne_eq, not_not, pure_eq_ok, Except.ok.injEq] at h
      obtain ⟨_, ⟨_, -, _, -, _, hLength, -⟩, _, -, later, hLater, -⟩ := h
      intro event hEvent
      rcases List.mem_cons.mp hEvent with rfl | hRest
      · exact hLength
      · exact ih hLater event hRest

/-- The rows of a request can always be deleted, and none is left. -/
theorem deleteProjections_ok (key : RequestKey) (before : Database) :
    ∃ deleted, execute (fun tables =>
      { tables with
        lifecycleProjections := tables.lifecycleProjections.filter
          fun row => decide (row.key ≠ key) }) before = .ok ((), deleted) ∧
      deleted.projectionOf key = [] := by
  have hDelete : ∃ deleted, execute (fun tables =>
      { tables with
        lifecycleProjections := tables.lifecycleProjections.filter
          fun row => decide (row.key ≠ key) }) before = .ok ((), deleted) := by
    apply execute_ok
    apply before.constraints.withProjections
    · exact (List.filter_sublist.map _).nodup before.constraints.projectionSequence
    · exact (List.filter_sublist.map _).nodup before.constraints.projectionDigest
    · exact fun row hRow =>
        before.constraints.projectionChecks row (List.mem_of_mem_filter hRow)
  obtain ⟨deleted, hDeleted⟩ := hDelete
  refine ⟨deleted, hDeleted, ?_⟩
  rw [execute_eq_ok hDeleted, Tables.projectionOf, Table.select, List.filter_filter]
  simp

/-- Work that asks for a resync can always be deleted. -/
theorem deleteResyncWork_ok (key : RequestKey) (before : Database) :
    ∃ after, execute (fun tables =>
      { tables with
        outbox := tables.outbox.filter fun row => decide (¬ row.AsksResync key) })
      before = .ok ((), after) := by
  apply execute_ok
  refine { before.constraints with outboxDedupe := ?_ }
  dsimp only
  rw [List.filter_comm]
  exact (List.filter_sublist.map _).nodup before.constraints.outboxDedupe

/-- A resync succeeds exactly on the lists that pass its checks. -/
theorem replaceFromVerifiedResync_ok_iff {scope : TenantScope} {requestPublicId : String}
    {events : List VerifiedLifecycleEvent} :
    (∃ after, replaceFromVerifiedResync scope requestPublicId events before =
      .ok ((), after)) ↔
      AcceptedResync scope requestPublicId events before.toTables := by
  constructor
  · rintro ⟨after, h⟩
    obtain ⟨key, hKey, hSome, hChain, hLeaves, hRows, -⟩ :=
      replaceFromVerifiedResync_eq_ok h
    obtain ⟨⟨hPublic, -, -⟩, sequences, _, _, _, _, hSequences, -⟩ :=
      replaceFromVerifiedResync_runs.mp h
    refine ⟨hPublic, hSome, ⟨sequences, hSequences⟩, hChain, ⟨key, hKey⟩, ?_⟩
    have hDistinct := after.nodup_digests key
    rw [hRows, map_digest_chainRows] at hDistinct
    exact hDistinct
  · intro h
    obtain ⟨sequences, hSequences⟩ := h.checked
    obtain ⟨key, hKey⟩ := h.request
    have hNumbers := validateResync_eq_ok hSequences h.contiguous
    subst hNumbers
    -- The four statements in turn: none of them is refused by the schema.
    obtain ⟨deleted, hDeleted, hEmptied⟩ := deleteProjections_ok key before
    have hInsert : ∃ inserted, insertProjections key
        (((List.range' 0 events.length).map Int.ofNat).zip events) deleted =
          .ok ((), inserted) := by
      apply insertProjections_ok (length_of_validateResync hSequences) h.digests
      · rw [hEmptied]
        nofun
      · rw [hEmptied]
        nofun
    obtain ⟨inserted, hInserted⟩ := hInsert
    have hMark : ∃ marked, markVerified key
        (((List.range' 0 events.length).map Int.ofNat).getLast?.getD 0) inserted =
          .ok ((), marked) := by
      apply markVerified_ok
      cases hLast : ((List.range' 0 events.length).map Int.ofNat).getLast? with
      | none => decide
      | some last =>
          obtain ⟨number, -, rfl⟩ := List.mem_map.mp (List.mem_of_getLast? hLast)
          exact Int.le_trans (by decide) (Int.natCast_nonneg number)
    obtain ⟨marked, hMarked⟩ := hMark
    obtain ⟨after, hAfter⟩ := deleteResyncWork_ok key marked
    exact ⟨after, replaceFromVerifiedResync_runs.mpr
      ⟨⟨h.publicId, h.nonempty, h.contiguous⟩, _, key, deleted, inserted, marked,
        hSequences, hKey, hDeleted, hInserted, hMarked, hAfter⟩⟩

theorem nextSequence_chainRows {events : List VerifiedLifecycleEvent} :
    nextSequence (chainRows key 0 events) = events.length := by
  rcases List.eq_nil_or_concat events with rfl | ⟨front, last, rfl⟩
  · rfl
  · rw [List.concat_eq_append, nextSequence, latest_chainRows_concat,
      List.length_append, List.length_singleton]
    simp

/-- A resync keeps the history exactly when a list that passes the checks repeats the
rows. -/
theorem resyncKeepsHistory_iff [Cryptography] {scope : TenantScope}
    {requestPublicId : String} {events : List VerifiedLifecycleEvent} :
    ResyncKeepsHistory before scope requestPublicId events ↔
      (AcceptedResync scope requestPublicId events before.toTables →
        RepeatsRows scope requestPublicId events before.toTables) := by
  have hOk : (∃ after, replaceFromVerifiedResync scope requestPublicId events before =
      .ok ((), after)) ↔ _ := replaceFromVerifiedResync_ok_iff
  unfold ResyncKeepsHistory RepeatsRows
  cases hReplace : replaceFromVerifiedResync scope requestPublicId events before with
  | error message =>
      refine ⟨fun _ hAccepted => ?_, fun _ => ?_⟩
      · obtain ⟨after, hAfter⟩ := hOk.mpr hAccepted
        rw [hReplace] at hAfter
        cases hAfter
      · show before.step _ = before
        rw [Database.step, Call.perform, hReplace]
        rfl
  | ok outcome =>
      obtain ⟨done, after⟩ := outcome
      obtain ⟨own, hOwn, hSome, hChain, -, hRows, -⟩ :=
        replaceFromVerifiedResync_eq_ok hReplace
      have hAccepted : AcceptedResync scope requestPublicId events before.toTables :=
        hOk.mp ⟨after, hReplace⟩
      dsimp only
      constructor
      -- A kept row is a row of the chain that was sent, so an event repeats it.
      · intro hKept _ key hKey row hRow
        cases hKey.symm.trans hOwn
        obtain ⟨kept, hStored, hSequence, hDigest⟩ := (hKept.2 own hKey).1 row hRow
        rw [hRows] at hStored
        obtain ⟨offset, event, hFound, rfl⟩ := mem_chainRows_iff.mp hStored
        refine ⟨event, List.mem_of_getElem? hFound, ?_, hDigest⟩
        rw [sequence_of_contiguous hChain hFound, ← hSequence]
      · intro hRepeats
        refine ⟨hSome, ?_⟩
        intro key hKey
        have hRepeated := hRepeats hAccepted key hKey
        cases hKey.symm.trans hOwn
        rw [hRows]
        have hKept : ∀ row ∈ before.projectionOf own, ∃ kept ∈ chainRows own 0 events,
            kept.brokerSequence = row.brokerSequence ∧
              kept.eventDigest = row.eventDigest := by
          intro row hRow
          obtain ⟨event, hEvent, hSequence, hDigest⟩ := hRepeated row hRow
          obtain ⟨offset, hFound⟩ := List.mem_iff_getElem?.mp hEvent
          rw [sequence_of_contiguous hChain hFound, Number.integer.injEq] at hSequence
          exact ⟨_, mem_chainRows_iff.mpr ⟨offset, event, hFound, rfl⟩, hSequence,
            hDigest⟩
        refine ⟨hKept, ?_⟩
        rw [nextSequence_chainRows, nextSequence]
        cases hLatest : latest (before.projectionOf own) with
        | none => exact Int.natCast_nonneg _
        | some last =>
            have hLast : last ∈ before.projectionOf own :=
              (List.mem_insertionSort _).mp (List.mem_of_mem_head? hLatest)
            obtain ⟨kept, hStored, hSequence, -⟩ := hKept last hLast
            have hBelow := (mem_chainRows_sequence hStored).2
            rw [hSequence, Nat.zero_add] at hBelow
            exact hBelow

end Success

/-! ### Both projections -/

/-- In every reachable state of either projection a resync keeps the history exactly
when a list that passes its checks repeats what was applied; the guard of the relay
has to be spared the empty list, too. -/
theorem resync_keeps_history_iff [Cryptography] :
    (∀ calls events,
      (run Relay.ProjectionChain.step .empty calls).RestoreKeepsHistory events ↔
        (Relay.ProjectionChain.CountsFrom 1 events →
          (run Relay.ProjectionChain.step .empty calls).RepeatedBy events)) ∧
    ∀ database scope requestPublicId events,
      ResyncKeepsHistory database scope requestPublicId events ↔
        (AcceptedResync scope requestPublicId events database.toTables →
          RepeatsRows scope requestPublicId events database.toTables) := by
  refine ⟨?_, fun _ _ _ _ => resyncKeepsHistory_iff⟩
  intro calls events
  exact (run_invariant Relay.ProjectionChain.Steady.empty
    Relay.ProjectionChain.Steady.step calls).restoreKeepsHistory_iff

/-- A guard that has applied two events. -/
def sampleChain : Relay.ProjectionChain :=
  run Relay.ProjectionChain.step .empty
    [.ingest { sequence := 1, eventDigest := ByteArr.fill 32 1 },
      .ingest { sequence := 2, eventDigest := ByteArr.fill 32 2 }]

/-- The sample request with one event. -/
def sampleProjection : Database :=
  run (@Database.step keyedHashCryptography) sampleDatabase
    [.applyVerifiedEvent sampleScope (sampleEvent 0 2)]

/-- The empty list and a list of one other event empty and overwrite the guard of the
relay; the latter also overwrites the projection of the service. -/
theorem resync_loses_history :
    ¬ sampleChain.RestoreKeepsHistory [] ∧
      ¬ sampleChain.RestoreKeepsHistory
        [{ sequence := 1, eventDigest := ByteArr.fill 32 9 }] ∧
      ¬ @ResyncKeepsHistory keyedHashCryptography sampleProjection sampleScope
        "AAAAAAAAAAAAAAAAAAAAAA" [sampleEvent 0 9] := by
  refine ⟨?_, ?_, ?_⟩
  · intro h
    exact (h.1 (by decide)).1 rfl
  · intro h
    have hKept := (h.1 (by decide)).2.1 1 (ByteArr.fill 32 1) (by decide)
    exact absurd hKept (by decide)
  · have hRows : (replaceFromVerifiedResync sampleScope "AAAAAAAAAAAAAAAAAAAAAA"
          [sampleEvent 0 9] sampleProjection).map
        (fun result => (result.2.projectionOf sampleKey).map ProjectionRow.eventDigest) =
          .ok [(ByteArr.fill 32 9).val] ∧
        (sampleProjection.projectionOf sampleKey).map ProjectionRow.eventDigest =
          [(ByteArr.fill 32 2).val] := by
      decide +kernel
    obtain ⟨hAfter, hBefore⟩ := hRows
    obtain ⟨⟨_, after⟩, hReplace, hReplaced⟩ := map_eq_ok_iff.mp hAfter
    unfold ResyncKeepsHistory
    rw [hReplace]
    intro h
    have hStored : (ByteArr.fill 32 2).val ∈
        (sampleProjection.projectionOf sampleKey).map ProjectionRow.eventDigest := by
      rw [hBefore]
      exact List.mem_cons_self
    obtain ⟨row, hRow, hOld⟩ := List.mem_map.mp hStored
    obtain ⟨kept, hKept, -, hSame⟩ := (h.2 sampleKey (by decide +kernel)).1 row hRow
    have hNew := List.mem_map_of_mem (f := ProjectionRow.eventDigest) hKept
    rw [hReplaced, hSame, hOld, List.mem_singleton] at hNew
    exact absurd hNew (by decide)

end Hosted
end RootPermit
