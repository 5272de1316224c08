import RootPermit.Foundation.Sha256
import RootPermit.Hosted.Projection

/-!
# Frozen projections

A gap or a conflict freezes the projection of a request until a verified resync
replaces it.  The relay's guard does so: it answers nothing else once it is frozen.
The repository of the service does not look at the freeze when it applies an event,
and an event that follows the last row lifts it (`in_order_event_thaws`).  Without
such an event a projection stays frozen (`frozen_until_resync`).

* `RequestView` — what the tables show of one request;
* `Call.effect` — what a call can do to the view of a request, said once.
-/

namespace RootPermit
namespace Hosted

open Foundation

/-! ### Calls -/

inductive Call where
  | applyVerifiedEvent (scope : TenantScope) (event : VerifiedLifecycleEvent)
  | replaceFromVerifiedResync (scope : TenantScope) (requestPublicId : String)
      (events : List VerifiedLifecycleEvent)
  | recordVerifiedCeremony (scope : TenantScope) (requestPublicId : String)
      (ceremony : VerifiedApprovalCeremony) (decisionPublicId : String)

/-- The database after a call, or the error that it throws. -/
def Call.perform [Cryptography] (database : Database) :
    Call → Except String Database
  | .applyVerifiedEvent scope event =>
      (Hosted.applyVerifiedEvent scope event database).map Prod.snd
  | .replaceFromVerifiedResync scope requestPublicId events =>
      (Hosted.replaceFromVerifiedResync scope requestPublicId events database).map
        Prod.snd
  | .recordVerifiedCeremony scope requestPublicId ceremony decisionPublicId =>
      (Hosted.recordVerifiedCeremony scope requestPublicId ceremony decisionPublicId
        database).map Prod.snd

def Database.step [Cryptography] (database : Database) (call : Call) : Database :=
  match call.perform database with
  | .ok next => next
  | .error _ => database

/-- What the tables show of a request. -/
structure RequestView where
  projection : List ProjectionRow
  frozenGap : Bool

def Tables.view (tables : Tables) (key : RequestKey) : RequestView where
  projection := tables.projectionOf key
  frozenGap := tables.frozenGap key

/-! ### Statements -/

section Statements

variable {key other : RequestKey}

/-- An upsert decides the freeze of its own request. -/
theorem frozenGap_upsert {row : SyncStateRow} {change : SyncStateRow → SyncStateRow}
    {states : List SyncStateRow}
    (hKey : ∀ found, (change found).key = found.key)
    (hFrozen : ∀ found, (change found).frozenGap = row.frozenGap) :
    (((Table.lookup SyncStateRow.key other
        (if (Table.lookup SyncStateRow.key row.key states).isSome then
          Table.update (fun found => decide (found.key = row.key)) change states
        else states ++ [row])).map SyncStateRow.frozenGap).getD false) =
      if row.key = other then row.frozenGap
      else ((Table.lookup SyncStateRow.key other states).map
        SyncStateRow.frozenGap).getD false := by
  rw [Table.lookup_upsert fun found hFound => (hKey found).trans hFound]
  by_cases hOther : row.key = other
  · rw [if_pos hOther, if_pos hOther, Option.map_some, Option.getD_some]
    cases Table.lookup SyncStateRow.key row.key states with
    | none => rfl
    | some found => exact hFrozen found
  · rw [if_neg hOther, if_neg hOther]

theorem view_upsertSyncState {before after : Database} {row : SyncStateRow}
    {change : SyncStateRow → SyncStateRow} {result : Unit}
    (h : upsertSyncState row change before = .ok (result, after))
    (hKey : ∀ found, (change found).key = found.key)
    (hFrozen : ∀ found, (change found).frozenGap = row.frozenGap)
    (other : RequestKey) :
    after.view other =
        { projection := before.projectionOf other
          frozenGap := if row.key = other then row.frozenGap
            else before.frozenGap other } ∧
      after.requestEnvelopes = before.requestEnvelopes := by
  have hAfter := execute_eq_ok h
  rw [hAfter]
  refine ⟨?_, rfl⟩
  show RequestView.mk _ _ = RequestView.mk _ _
  congr 1
  exact frozenGap_upsert hKey hFrozen

/-- A freeze changes the view of its own request only. -/
theorem view_freeze [Cryptography] {before after : Database} {digest : Bytes}
    {result : Unit}
    (h : freezeAndQueueResync key digest before = .ok (result, after))
    (other : RequestKey) :
    after.view other =
        { projection := before.projectionOf other
          frozenGap := if key = other then true else before.frozenGap other } ∧
      after.requestEnvelopes = before.requestEnvelopes := by
  rw [freezeAndQueueResync, run_bind_eq_ok_iff] at h
  obtain ⟨_, between, hUpsert, hOutbox⟩ := h
  obtain ⟨hView, hEnvelopes⟩ :=
    view_upsertSyncState hUpsert (fun _ => rfl) (fun _ => rfl) other
  have hAfter := execute_eq_ok hOutbox
  constructor
  · rw [← hView, hAfter]
    rfl
  · rw [hAfter]
    exact hEnvelopes

/-- A new row changes the projection of its own request only. -/
theorem view_insertProjection {before after : Database} {sequence : Int}
    {event : VerifiedLifecycleEvent} {frozenGap : Bool} {result : Unit}
    (h : insertProjection key sequence event frozenGap before = .ok (result, after))
    (other : RequestKey) :
    after.view other =
        { projection := before.projectionOf other ++
            if key = other then
              [{ key, brokerSequence := sequence, eventDigest := event.eventDigest
                 state := event.state, frozenGap }]
            else []
          frozenGap := before.frozenGap other } ∧
      after.requestEnvelopes = before.requestEnvelopes := by
  have hAfter := execute_eq_ok h
  rw [hAfter]
  refine ⟨?_, rfl⟩
  show RequestView.mk _ _ = RequestView.mk _ _
  congr 1
  exact Table.select_append _

/-- A new row has a new digest. -/
theorem digest_insertProjection {before after : Database} {sequence : Int}
    {event : VerifiedLifecycleEvent} {frozenGap : Bool} {result : Unit}
    (h : insertProjection key sequence event frozenGap before = .ok (result, after)) :
    ∀ row ∈ before.projectionOf key, row.eventDigest ≠ event.eventDigest := by
  intro row hRow hSame
  obtain ⟨hStored, hKey⟩ := Table.mem_select_iff.mp hRow
  have hUnique := after.constraints.projectionDigest
  rw [execute_eq_ok h, Table.Keyed, List.map_append] at hUnique
  have hOld : (key, event.eventDigest) ∈
      before.lifecycleProjections.map fun row => (row.key, row.eventDigest) := by
    rw [← hKey, ← hSame]
    exact List.mem_map_of_mem (f := fun row => (row.key, row.eventDigest)) hStored
  exact (List.nodup_append.mp hUnique).2.2 _ hOld _ List.mem_cons_self rfl

theorem view_insertProjections {before after : Database}
    {events : List (Int × VerifiedLifecycleEvent)} {result : Unit}
    (h : insertProjections key events before = .ok (result, after))
    (other : RequestKey) :
    (key ≠ other → after.view other = before.view other) ∧
      after.requestEnvelopes = before.requestEnvelopes := by
  induction events generalizing before result with
  | nil =>
      rw [insertProjections, run_pure_eq_ok_iff] at h
      rw [h.2]
      exact ⟨fun _ => rfl, rfl⟩
  | cons event events ih =>
      rw [insertProjections, run_bind_eq_ok_iff] at h
      obtain ⟨_, between, hInsert, hRest⟩ := h
      obtain ⟨hView, hEnvelopes⟩ := view_insertProjection hInsert other
      obtain ⟨hLater, hSame⟩ := ih hRest
      refine ⟨fun hOther => ?_, hSame.trans hEnvelopes⟩
      rw [if_neg hOther, List.append_nil] at hView
      exact (hLater hOther).trans hView

end Statements

/-! ### What a call can do -/

section Effects

variable {before after : Database} {key : RequestKey} {call : Call}

/-- The call applies a new event that follows the last row of the projection. -/
def Call.Extends (key : RequestKey) (tables : Tables) : Call → Prop
  | .applyVerifiedEvent scope event =>
      scopedRequestForUpdate scope event.requestPublicId tables = .ok key ∧
        (∃ sequence, validateEvent event = .ok sequence ∧
          Follows (tables.projectionOf key) sequence event.previousEventDigest) ∧
        ∀ row ∈ tables.projectionOf key, row.eventDigest ≠ event.eventDigest
  | _ => False

/-- The call resynchronizes the request. -/
def Call.Resyncs (key : RequestKey) (database : Database) : Call → Prop
  | .replaceFromVerifiedResync scope requestPublicId events =>
      scopedRequestForUpdate scope requestPublicId database.toTables = .ok key ∧
        ∃ next, Hosted.replaceFromVerifiedResync scope requestPublicId events
          database = .ok ((), next)
  | _ => False

/-- The view of a request after a successful call. -/
inductive Effect (call : Call) (key : RequestKey) (before after : Database) : Prop where
  | kept (hView : after.view key = before.view key)
  | froze (hView : after.view key =
      { projection := before.projectionOf key, frozenGap := true })
  | extended (hExtends : call.Extends key before.toTables)
  | resynced (hResyncs : call.Resyncs key before)

/-- The three answers to an event: it is known, it freezes the projection, or it
follows the last row and extends it. -/
theorem applyVerifiedEvent_eq_ok [Cryptography] {scope : TenantScope}
    {event : VerifiedLifecycleEvent} {result : ProjectionApplyResult}
    (h : applyVerifiedEvent scope event before = .ok (result, after)) :
    ∃ key sequence, validateEvent event = .ok sequence ∧
      scopedRequestForUpdate scope event.requestPublicId before.toTables = .ok key ∧
      ((result = .duplicate ∧ before = after) ∨
        (result = .frozenGap ∧
          freezeAndQueueResync key event.eventDigest before = .ok ((), after)) ∨
        (result = .applied ∧
          Follows (before.projectionOf key) sequence event.previousEventDigest ∧
          ∃ between, insertProjection key sequence event false before =
              .ok ((), between) ∧
            markVerified key sequence between = .ok ((), after))) := by
  simp only [applyVerifiedEvent, apply, run_bind_eq_ok_iff, query_eq_ok_iff] at h
  obtain ⟨sequence, _, ⟨hSequence, rfl⟩, key, _, ⟨hKey, rfl⟩, rows, _,
    ⟨hRows, rfl⟩, h⟩ := h
  refine ⟨key, sequence, hSequence, hKey, ?_⟩
  cases hExisting : rows.find? fun row => decide (row.brokerSequence = sequence) with
  | some existing =>
      rw [hExisting] at h
      -- The sequence is known: the same event is a duplicate, another one freezes.
      dsimp only at h
      split at h
      · rw [run_pure_eq_ok_iff] at h
        exact Or.inl ⟨h.1.symm, h.2⟩
      · simp only [run_bind_eq_ok_iff, run_pure_eq_ok_iff] at h
        obtain ⟨_, _, hFreeze, hResult, rfl⟩ := h
        exact Or.inr (Or.inl ⟨hResult.symm, hFreeze⟩)
  | none =>
      rw [hExisting] at h
      -- The sequence is new: an event that does not follow the last row freezes.
      dsimp only at h
      split at h
      · simp only [run_bind_eq_ok_iff, run_pure_eq_ok_iff] at h
        obtain ⟨_, _, hFreeze, hResult, rfl⟩ := h
        exact Or.inr (Or.inl ⟨hResult.symm, hFreeze⟩)
      · rename_i hFollows
        rw [not_not, ← Except.ok.inj hRows] at hFollows
        simp only [run_bind_eq_ok_iff, run_pure_eq_ok_iff] at h
        obtain ⟨_, between, hInsert, _, _, hMark, hResult, rfl⟩ := h
        exact Or.inr (Or.inr ⟨hResult.symm, hFollows, between, hInsert, hMark⟩)

theorem applyVerifiedEvent_effect [Cryptography] {scope : TenantScope}
    {event : VerifiedLifecycleEvent} {result : ProjectionApplyResult}
    (h : applyVerifiedEvent scope event before = .ok (result, after)) :
    Effect (.applyVerifiedEvent scope event) key before after ∧
      after.requestEnvelopes = before.requestEnvelopes := by
  obtain ⟨found, sequence, hSequence, hFound, ⟨-, rfl⟩ | ⟨-, hFreeze⟩ |
    ⟨-, hFollows, between, hInsert, hMark⟩⟩ := applyVerifiedEvent_eq_ok h
  · exact ⟨.kept rfl, rfl⟩
  · obtain ⟨hView, hEnvelopes⟩ := view_freeze hFreeze key
    refine ⟨?_, hEnvelopes⟩
    by_cases hKey : found = key
    · rw [if_pos hKey] at hView
      exact .froze hView
    · rw [if_neg hKey] at hView
      exact .kept hView
  · obtain ⟨hInserted, hEnvelopes⟩ := view_insertProjection hInsert key
    obtain ⟨hMarked, hSame⟩ :=
      view_upsertSyncState hMark (fun _ => rfl) (fun _ => rfl) key
    refine ⟨?_, hSame.trans hEnvelopes⟩
    by_cases hKey : found = key
    · subst hKey
      exact .extended ⟨hFound, ⟨sequence, hSequence, hFollows⟩,
        digest_insertProjection hInsert⟩
    · rw [if_neg hKey] at hMarked
      rw [if_neg hKey, List.append_nil] at hInserted
      refine .kept (hMarked.trans ?_)
      exact hInserted

/-- A resync checks its events, replaces the rows of the request by theirs, counts them
and clears the request for a resync. -/
theorem replaceFromVerifiedResync_runs {scope : TenantScope}
    {requestPublicId : String} {events : List VerifiedLifecycleEvent} :
    replaceFromVerifiedResync scope requestPublicId events before = .ok ((), after) ↔
      (requirePublicId requestPublicId = .ok () ∧ events ≠ [] ∧
        validateContiguousChain 0 none events = .ok ()) ∧
      ∃ sequences key deleted inserted marked,
        validateResync requestPublicId events = .ok sequences ∧
        scopedRequestForUpdate scope requestPublicId before.toTables = .ok key ∧
        execute (fun tables =>
          { tables with
            lifecycleProjections := tables.lifecycleProjections.filter
              fun row => decide (row.key ≠ key) }) before = .ok ((), deleted) ∧
        insertProjections key (sequences.zip events) deleted = .ok ((), inserted) ∧
        markVerified key (sequences.getLast?.getD 0) inserted = .ok ((), marked) ∧
        execute (fun tables =>
          { tables with
            outbox := tables.outbox.filter
              fun row => decide (¬ row.AsksResync key) }) marked = .ok ((), after) := by
  simp only [replaceFromVerifiedResync, run_bind_eq_ok_iff, query_eq_ok_iff,
    rejectIf_eq_ok_iff]
  constructor
  · intro h
    obtain ⟨_, _, ⟨hPublic, rfl⟩, _, _, ⟨hSome, rfl⟩, sequences, _, ⟨hSequences, rfl⟩, _,
      _, ⟨hChain, rfl⟩, key, _, ⟨hKey, rfl⟩, _, deleted, hDelete, _, inserted, hInsert, _,
      marked, hMark, hClear⟩ := h
    exact ⟨⟨hPublic, hSome, hChain⟩, sequences, key, deleted, inserted, marked,
      hSequences, hKey, hDelete, hInsert, hMark, hClear⟩
  · intro h
    obtain ⟨⟨hPublic, hSome, hChain⟩, sequences, key, deleted, inserted, marked,
      hSequences, hKey, hDelete, hInsert, hMark, hClear⟩ := h
    exact ⟨(), before, ⟨hPublic, rfl⟩, (), before, ⟨hSome, rfl⟩, sequences, before,
      ⟨hSequences, rfl⟩, (), before, ⟨hChain, rfl⟩, key, before, ⟨hKey, rfl⟩, (), deleted,
      hDelete, (), inserted, hInsert, (), marked, hMark, hClear⟩

theorem replaceFromVerifiedResync_effect {scope : TenantScope}
    {requestPublicId : String} {events : List VerifiedLifecycleEvent} {result : Unit}
    (h : replaceFromVerifiedResync scope requestPublicId events before =
      .ok (result, after)) :
    Effect (.replaceFromVerifiedResync scope requestPublicId events) key before
        after ∧ after.requestEnvelopes = before.requestEnvelopes := by
  obtain ⟨-, sequences, found, deleted, inserted, marked, -, hFound, hDelete, hInsert,
    hMark, hOutbox⟩ := replaceFromVerifiedResync_runs.mp h
  have hDeleted := execute_eq_ok hDelete
  have hAfter := execute_eq_ok hOutbox
  obtain ⟨hInserted, hEnvelopes⟩ := view_insertProjections hInsert key
  obtain ⟨hMarked, hSame⟩ :=
    view_upsertSyncState hMark (fun _ => rfl) (fun _ => rfl) key
  constructor
  · by_cases hKey : found = key
    · subst hKey
      exact .resynced ⟨hFound, after, h⟩
    · rw [if_neg hKey] at hMarked
      -- A resync replaces the rows of its own request only.
      have hView : deleted.view key = before.view key := by
        rw [hDeleted]
        show RequestView.mk _ _ = RequestView.mk _ _
        congr 1
        exact Table.select_filter_ne hKey
      apply Effect.kept
      calc after.view key = marked.view key := by rw [hAfter]; rfl
        _ = inserted.view key := hMarked
        _ = deleted.view key := hInserted hKey
        _ = before.view key := hView
  · calc after.requestEnvelopes = marked.requestEnvelopes := by rw [hAfter]
      _ = inserted.requestEnvelopes := hSame
      _ = deleted.requestEnvelopes := hEnvelopes
      _ = before.requestEnvelopes := by rw [hDeleted]

/-- A relation is one of the request that its scope and public id name, and shows
whether that request is frozen. -/
theorem scopedRequest_of_relation {tables : Tables} {scope : TenantScope}
    {requestPublicId credentialPublicId : String} {relation : DecisionRelation}
    (h : findPinnedRelation scope requestPublicId credentialPublicId tables =
      some relation) :
    ∃ key : RequestKey,
      key = { tenantId := scope.tenantId, requestEnvelopeId := relation.request.id } ∧
      scopedRequestForUpdate scope requestPublicId tables = .ok key ∧
      relation.frozenGap = tables.frozenGap key := by
  simp only [findPinnedRelation, Option.bind_eq_bind, Option.bind_eq_some_iff] at h
  obtain ⟨request, hRequest, credential, -, hSame⟩ := h
  split at hSame
  · rw [← Option.some.inj hSame]
    refine ⟨_, rfl, ?_, rfl⟩
    rw [scopedRequestForUpdate, hRequest]
  · cases hSame

/-- A ceremony adds a decision of its request, which is not frozen. -/
theorem recordVerifiedCeremony_eq_ok {scope : TenantScope}
    {requestPublicId decisionPublicId : String} {ceremony : VerifiedApprovalCeremony}
    {result : BrokerForwardDecision}
    (h : recordVerifiedCeremony scope requestPublicId ceremony decisionPublicId
      before = .ok (result, after)) :
    ∃ key added, scopedRequestForUpdate scope requestPublicId before.toTables =
        .ok key ∧ before.frozenGap key ≠ true ∧ added.key = key ∧
      after.toTables =
        { before.toTables with decisions := before.decisions ++ [added] } := by
  simp only [recordVerifiedCeremony, run_bind_eq_ok_iff, query_eq_ok_iff,
    orFault_eq_ok_iff, rejectIf_eq_ok_iff, run_pure_eq_ok_iff, not_or] at h
  obtain ⟨_, _, ⟨-, rfl⟩, _, _, ⟨-, rfl⟩, _, _, ⟨-, rfl⟩, relation, _,
    ⟨hRelation, rfl⟩, _, _, ⟨-, rfl⟩, _, _, ⟨⟨hOpen, -⟩, rfl⟩, _, _, ⟨-, rfl⟩, _, _,
    hInsert, -, rfl⟩ := h
  obtain ⟨key, hKey, hScoped, hGap⟩ := scopedRequest_of_relation hRelation
  rw [hGap] at hOpen
  exact ⟨key, _, hScoped, hOpen, hKey.symm, execute_eq_ok hInsert⟩

theorem recordVerifiedCeremony_effect {scope : TenantScope}
    {requestPublicId decisionPublicId : String} {ceremony : VerifiedApprovalCeremony}
    {result : BrokerForwardDecision}
    (h : recordVerifiedCeremony scope requestPublicId ceremony decisionPublicId
      before = .ok (result, after)) :
    after.view key = before.view key ∧
      after.requestEnvelopes = before.requestEnvelopes := by
  obtain ⟨_, _, -, -, -, hAfter⟩ := recordVerifiedCeremony_eq_ok h
  rw [hAfter]
  exact ⟨rfl, rfl⟩

/-- What a call does to the view of a request; it never changes the envelopes. -/
theorem Call.effect [Cryptography] (h : call.perform before = .ok after) (key : RequestKey) :
    Effect call key before after ∧
      after.requestEnvelopes = before.requestEnvelopes := by
  cases call with
  | applyVerifiedEvent scope event =>
      obtain ⟨⟨result, _⟩, hApply, rfl⟩ := map_eq_ok_iff.mp h
      exact applyVerifiedEvent_effect hApply
  | replaceFromVerifiedResync scope requestPublicId events =>
      obtain ⟨⟨result, _⟩, hResync, rfl⟩ := map_eq_ok_iff.mp h
      exact replaceFromVerifiedResync_effect hResync
  | recordVerifiedCeremony scope requestPublicId ceremony decisionPublicId =>
      obtain ⟨⟨result, _⟩, hRecord, rfl⟩ := map_eq_ok_iff.mp h
      obtain ⟨hView, hEnvelopes⟩ := recordVerifiedCeremony_effect hRecord
      exact ⟨.kept hView, hEnvelopes⟩

end Effects

/-! ### Decisions on a frozen request -/

section Refusal

variable {key : RequestKey}

/-- A decision on a frozen request is refused. -/
theorem recordVerifiedCeremony_of_frozen {database : Database} {scope : TenantScope}
    {requestPublicId : String}
    (hKey : scopedRequestForUpdate scope requestPublicId database.toTables = .ok key)
    (hFrozen : database.frozenGap key = true) (ceremony : VerifiedApprovalCeremony)
    (decisionPublicId : String) :
    ∃ message, recordVerifiedCeremony scope requestPublicId ceremony decisionPublicId
      database = .error message := by
  cases hOutcome : recordVerifiedCeremony scope requestPublicId ceremony
      decisionPublicId database with
  | error message => exact ⟨message, rfl⟩
  | ok outcome =>
      obtain ⟨result, after⟩ := outcome
      obtain ⟨found, _, hFound, hOpen, -⟩ := recordVerifiedCeremony_eq_ok hOutcome
      rw [hKey, Except.ok.injEq] at hFound
      rw [← hFound] at hOpen
      exact absurd hFrozen hOpen

/-- Every decision on the request is refused. -/
def RefusesDecisions (key : RequestKey) (database : Database) : Prop :=
  ∀ scope requestPublicId ceremony decisionPublicId,
    scopedRequestForUpdate scope requestPublicId database.toTables = .ok key →
    ∃ message, recordVerifiedCeremony scope requestPublicId ceremony decisionPublicId
      database = .error message

end Refusal

/-! ### The freeze -/

section Freeze

variable [Cryptography] {key : RequestKey}

/-- The projection of the request is frozen with these rows. -/
structure FrozenWith (key : RequestKey) (rows : List ProjectionRow)
    (database : Database) : Prop where
  frozen : database.frozenGap key = true
  projection : database.projectionOf key = rows

theorem FrozenWith.step {rows : List ProjectionRow} {database : Database} {call : Call}
    (h : FrozenWith key rows database) (hExtends : ¬ call.Extends key database.toTables)
    (hResyncs : ¬ call.Resyncs key database) :
    FrozenWith key rows (database.step call) := by
  unfold Database.step
  cases hPerform : call.perform database with
  | error message => exact h
  | ok after =>
      obtain ⟨hEffect, -⟩ := Call.effect hPerform key
      cases hEffect with
      | kept hView =>
          exact ⟨(congrArg RequestView.frozenGap hView).trans h.frozen,
            (congrArg RequestView.projection hView).trans h.projection⟩
      | froze hView =>
          exact ⟨congrArg RequestView.frozenGap hView,
            (congrArg RequestView.projection hView).trans h.projection⟩
      | extended hExtended => exact absurd hExtended hExtends
      | resynced hResynced => exact absurd hResynced hResyncs

/-- An event that is answered by a freeze freezes the projection of its request, and
adds no row to it. -/
theorem frozenWith_of_result {scope : TenantScope} {event : VerifiedLifecycleEvent}
    {before after : Database}
    (hKey : scopedRequestForUpdate scope event.requestPublicId before.toTables =
      .ok key)
    (h : applyVerifiedEvent scope event before = .ok (.frozenGap, after)) :
    FrozenWith key (before.projectionOf key) after := by
  obtain ⟨found, sequence, -, hFound, ⟨hResult, -⟩ | ⟨-, hFreeze⟩ | ⟨hResult, -⟩⟩ :=
    applyVerifiedEvent_eq_ok h
  · cases hResult
  · have hSame : found = key := Except.ok.inj (hFound.symm.trans hKey)
    have hView := (view_freeze hFreeze key).1
    rw [if_pos hSame] at hView
    exact ⟨congrArg RequestView.frozenGap hView,
      congrArg RequestView.projection hView⟩
  · cases hResult

end Freeze

/-! ### The guard of the relay -/

namespace Relay
namespace ProjectionChain

theorem ingest_of_frozen {chain : ProjectionChain} (h : chain.frozenGap = true)
    (event : VerifiedLifecycleEvent) : chain.ingest event = (.frozenGap, chain) := by
  rw [ingest, if_pos h]

/-- The expected event is applied, and the next one is expected. -/
theorem ingest_of_expected {chain : ProjectionChain} {event : VerifiedLifecycleEvent}
    (hOpen : chain.frozenGap = false) (hSequence : event.sequence = chain.expected) :
    (chain.ingest event).1 = .applied ∧ (chain.ingest event).2.frozenGap = false ∧
      (chain.ingest event).2.nextSequence = saturatingSucc chain.expected := by
  rw [ingest, if_neg (by simp [hOpen]), if_pos hSequence]
  dsimp only
  exact ⟨rfl, hOpen, rfl⟩

theorem frozen_of_ingest {chain : ProjectionChain} {event : VerifiedLifecycleEvent}
    (h : (chain.ingest event).1 = .frozenGap) :
    (chain.ingest event).2.frozenGap = true := by
  unfold ingest at h ⊢
  split
  · rename_i hFrozen
    exact hFrozen
  · rename_i hOpen
    rw [if_neg hOpen] at h
    split
    · rename_i hExpected
      rw [if_pos hExpected] at h
      cases h
    · rename_i hOther
      rw [if_neg hOther] at h
      split
      · rename_i hKnown
        rw [if_pos hKnown] at h
        cases h
      · rfl

/-- Once the guard has answered with a freeze, it answers nothing else. -/
theorem ingest_after_freeze {chain : ProjectionChain} {event : VerifiedLifecycleEvent}
    (h : (chain.ingest event).1 = .frozenGap) (events : List VerifiedLifecycleEvent)
    (next : VerifiedLifecycleEvent) :
    ((run (fun chain event => (chain.ingest event).2) (chain.ingest event).2
      events).ingest next).1 = .frozenGap := by
  have hFrozen : (run (fun chain event => (chain.ingest event).2)
      (chain.ingest event).2 events).frozenGap = true := by
    apply run_invariant (I := fun chain : ProjectionChain => chain.frozenGap = true)
    · exact frozen_of_ingest h
    · intro chain event hChain
      rw [ingest_of_frozen hChain]
      exact hChain
  rw [ingest_of_frozen hFrozen]

end ProjectionChain
end Relay

/-! ### Frozen until a resync -/

/-- In every run in which no event extends the projection of the request while it is
frozen: from an answer `frozen_gap` on, until a resync of the request commits, its
projection stays frozen with the same rows and decisions on it are refused.  The
guard of the relay answers only `FrozenGap` from then on. -/
theorem frozen_until_resync [Cryptography] (key : RequestKey) (start : Database)
    (calls : List Call)
    (hCalls : Throughout Database.step start calls fun database call =>
      database.frozenGap key = true → ¬ call.Extends key database.toTables) :
    (∀ earlier scope event between later,
      calls = earlier ++ .applyVerifiedEvent scope event :: between ++ later →
      scopedRequestForUpdate scope event.requestPublicId
        (run Database.step start earlier).toTables = .ok key →
      ∀ frozen, applyVerifiedEvent scope event (run Database.step start earlier) =
        .ok (.frozenGap, frozen) →
      Throughout Database.step frozen between
        (fun database call => ¬ call.Resyncs key database) →
      FrozenWith key ((run Database.step start earlier).projectionOf key)
          (run Database.step start
            (earlier ++ .applyVerifiedEvent scope event :: between)) ∧
        RefusesDecisions key (run Database.step start
          (earlier ++ .applyVerifiedEvent scope event :: between))) ∧
    ∀ (chain : Relay.ProjectionChain) event,
      (chain.ingest event).1 = .frozenGap → ∀ events next,
        ((run (fun chain event => (chain.ingest event).2) (chain.ingest event).2
          events).ingest next).1 = .frozenGap := by
  refine ⟨?_, fun chain event h => Relay.ProjectionChain.ingest_after_freeze h⟩
  intro earlier scope event between later hShape hKey frozen hApply hNoResync
  have hStep : (run Database.step start earlier).step
      (.applyVerifiedEvent scope event) = frozen := by
    rw [Database.step, Call.perform, hApply]
    rfl
  have hFrozen : FrozenWith key ((run Database.step start earlier).projectionOf key)
      (run Database.step frozen between) := by
    -- The calls in between meet the condition, because the whole run does.
    have hBetween : Throughout Database.step frozen between fun database call =>
        ¬ call.Resyncs key database ∧ (database.frozenGap key = true →
          ¬ call.Extends key database.toTables) := by
      intro front call back hFront
      refine ⟨hNoResync front call back hFront, ?_⟩
      have hSplit : calls =
          (earlier ++ .applyVerifiedEvent scope event :: front) ++
            call :: (back ++ later) := by
        rw [hShape, hFront]
        simp
      have hCondition := hCalls _ call _ hSplit
      rw [run_append, run_cons, hStep] at hCondition
      exact hCondition
    apply run_invariant_of_throughout (frozenWith_of_result hKey hApply) _ hBetween
    intro database call hState hCall
    exact hState.step (hCall.2 hState.frozen) hCall.1
  rw [run_append, run_cons, hStep]
  exact ⟨hFrozen, fun _ _ ceremony decisionPublicId hTarget =>
    recordVerifiedCeremony_of_frozen hTarget hFrozen.frozen ceremony
      decisionPublicId⟩

/-! ### A thawed projection -/

def sampleScope : TenantScope where
  tenantId := "018f47f5-9f2a-7a30-9f7d-94c4bb5e9711"
  accountId := "018f47f5-9f2a-7a30-9f7d-94c4bb5e9712"

def sampleKey : RequestKey where
  tenantId := sampleScope.tenantId
  requestEnvelopeId := "018f47f5-9f2a-7a30-9f7d-94c4bb5e9713"

/-- One known request, and one credential of its device. -/
def sampleDatabase : Database where
  requestEnvelopes :=
    [{ id := sampleKey.requestEnvelopeId, tenantId := sampleScope.tenantId
       publicId := "AAAAAAAAAAAAAAAAAAAAAA"
       deviceId := "018f47f5-9f2a-7a30-9f7d-94c4bb5e9714" }]
  credentialBindings :=
    [{ id := "018f47f5-9f2a-7a30-9f7d-94c4bb5e9715", tenantId := sampleScope.tenantId
       publicId := "BBBBBBBBBBBBBBBBBBBBBB"
       deviceId := "018f47f5-9f2a-7a30-9f7d-94c4bb5e9714", quarantinedAt := none }]
  constraints := by decide +kernel

/-- A pending event of the sample request, without a predecessor. -/
def sampleEvent (sequence : Int) (digest : UInt8) : VerifiedLifecycleEvent where
  requestPublicId := "AAAAAAAAAAAAAAAAAAAAAA"
  sequence := .integer sequence
  eventDigest := (ByteArr.fill 32 digest).val
  previousEventDigest := none
  state := "pending"

def sampleCeremony : VerifiedApprovalCeremony where
  credentialBindingPublicId := "BBBBBBBBBBBBBBBBBBBBBB"
  assertionReference := (ByteArr.fill 32 9).val
  decision := .approve

/-- The sample request gets two events after gaps. -/
def gapCalls : List Call :=
  [.applyVerifiedEvent sampleScope (sampleEvent 3 1),
    .applyVerifiedEvent sampleScope (sampleEvent 5 2)]

/-- Neither of them extends a frozen projection. -/
theorem gapCalls_extend_nothing :
    Throughout (@Database.step keyedHashCryptography) sampleDatabase gapCalls
      fun database call => database.frozenGap sampleKey = true →
        ¬ call.Extends sampleKey database.toTables := by
  intro earlier call later hSplit hFrozen
  rcases earlier with _ | ⟨first, earlier⟩
  · -- Nothing is frozen before the first call.
    exact absurd hFrozen (by decide)
  · obtain ⟨rfl, hRest⟩ := List.cons.inj hSplit
    rcases earlier with _ | ⟨second, earlier⟩
    · obtain ⟨rfl, -⟩ := List.cons.inj hRest
      rintro ⟨-, ⟨sequence, hSequence, hFollows⟩, -⟩
      have hValue : validateEvent (sampleEvent 5 2) = .ok 5 := by decide +kernel
      have hRows : (run (@Database.step keyedHashCryptography) sampleDatabase
          [.applyVerifiedEvent sampleScope (sampleEvent 3 1)]).projectionOf
            sampleKey = [] := by
        decide +kernel
      rw [hValue, Except.ok.injEq] at hSequence
      rw [hRows, ← hSequence] at hFollows
      exact absurd hFollows (by decide)
    · simp at hRest

/-- The sample request stays frozen, without a row, and no decision on it is
recorded. -/
theorem frozen_until_resync_sample :
    FrozenWith sampleKey []
        (run (@Database.step keyedHashCryptography) sampleDatabase gapCalls) ∧
      RefusesDecisions sampleKey
        (run (@Database.step keyedHashCryptography) sampleDatabase gapCalls) := by
  have hFreeze : (@applyVerifiedEvent keyedHashCryptography sampleScope
      (sampleEvent 3 1) sampleDatabase).map Prod.fst = .ok .frozenGap := by
    decide +kernel
  obtain ⟨⟨_, frozen⟩, hApply, rfl⟩ := map_eq_ok_iff.mp hFreeze
  have hNoResync : Throughout (@Database.step keyedHashCryptography) frozen
      [.applyVerifiedEvent sampleScope (sampleEvent 5 2)]
      fun database call => ¬ call.Resyncs sampleKey database := by
    apply Throughout.of_mem
    intro call hCall database
    rw [List.mem_singleton.mp hCall]
    exact not_false
  exact (@frozen_until_resync keyedHashCryptography sampleKey sampleDatabase gapCalls
    gapCalls_extend_nothing).1 [] sampleScope (sampleEvent 3 1)
    [.applyVerifiedEvent sampleScope (sampleEvent 5 2)] [] rfl (by decide +kernel)
    frozen hApply hNoResync

/-- The event that starts the chain is applied to the frozen projection. -/
def thawingCalls : List Call :=
  [.applyVerifiedEvent sampleScope (sampleEvent 3 1),
    .applyVerifiedEvent sampleScope (sampleEvent 0 2)]

/-- It lifts the freeze, adds a row, and lets a decision be recorded. -/
theorem in_order_event_thaws :
    (@applyVerifiedEvent keyedHashCryptography sampleScope (sampleEvent 3 1)
        sampleDatabase).map Prod.fst = .ok .frozenGap ∧
      ¬ FrozenWith sampleKey []
        (run (@Database.step keyedHashCryptography) sampleDatabase thawingCalls) ∧
      ¬ RefusesDecisions sampleKey
        (run (@Database.step keyedHashCryptography) sampleDatabase thawingCalls) := by
  refine ⟨by decide +kernel, ?_, ?_⟩
  · intro h
    have hThawed : (run (@Database.step keyedHashCryptography) sampleDatabase
        thawingCalls).frozenGap sampleKey = false := by
      decide +kernel
    rw [h.frozen] at hThawed
    cases hThawed
  · intro h
    have hRecorded : (recordVerifiedCeremony sampleScope "AAAAAAAAAAAAAAAAAAAAAA"
        sampleCeremony "CCCCCCCCCCCCCCCCCCCCCC"
        (run (@Database.step keyedHashCryptography) sampleDatabase
          thawingCalls)).isOk = true := by
      decide +kernel
    obtain ⟨message, hRefused⟩ := h sampleScope "AAAAAAAAAAAAAAAAAAAAAA"
      sampleCeremony "CCCCCCCCCCCCCCCCCCCCCC" (by decide +kernel)
    rw [hRefused] at hRecorded
    cases hRecorded

end Hosted
end RootPermit
