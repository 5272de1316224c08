import RootPermit.Foundation.Noninterference
import RootPermit.Hosted.RequestRepository
import RootPermit.Hosted.TenantView

/-!
# Tenants do not interfere

In every interleaving of calls, what a tenant gets is what it would get from a database
with its own rows alone, had no other tenant made a call (`tenants_isolated`).
-/

namespace RootPermit
namespace Hosted

open Foundation

/-! ### What a tenant sees -/

/-- The database that the row policy shows to a tenant. -/
def ServiceDatabase.visible (tenantId : String) (database : ServiceDatabase) :
    ServiceDatabase where
  toDatabase := database.toDatabase.visible tenantId
  envelopeColumns := database.envelopeColumns.filter fun row =>
    decide (row.tenantId = tenantId)
  devices := database.devices.filter fun row => decide (row.tenantId = tenantId)

theorem Tables.visible_visible (tenantId : String) (tables : Tables) :
    (tables.visible tenantId).visible tenantId = tables.visible tenantId := by
  simp only [Tables.visible, List.filter_filter, Bool.and_self]

theorem ServiceDatabase.visible_visible (database : ServiceDatabase)
    (tenantId : String) :
    (database.visible tenantId).visible tenantId = database.visible tenantId := by
  have hDatabase : (database.toDatabase.visible tenantId).visible tenantId =
      database.toDatabase.visible tenantId :=
    Database.ext_tables (Tables.visible_visible tenantId database.toTables)
  simp only [ServiceDatabase.visible, hDatabase, List.filter_filter, Bool.and_self]

/-! ### Reads -/

section Reads

variable {database : ServiceDatabase} {tenantId : String}

/-- Rows that contribute nothing may be left out of a join. -/
theorem flatMap_filter {ρ β : Type} {shown : ρ → Bool} {join : ρ → List β}
    (hNone : ∀ row, shown row ≠ true → join row = []) (rows : List ρ) :
    (rows.filter shown).flatMap join = rows.flatMap join := by
  induction rows with
  | nil => rfl
  | cons row rest ih =>
      by_cases hRow : shown row = true
      · rw [List.filter_cons_of_pos hRow, List.flatMap_cons, List.flatMap_cons, ih]
      · rw [List.filter_cons_of_neg hRow, List.flatMap_cons, hNone row hRow, ih,
          List.nil_append]

/-- The rows that join with one envelope. -/
def ServiceDatabase.joined (database : ServiceDatabase) (envelope : RequestEnvelopeRow) :
    List RequestRow :=
  (database.envelopeColumns.filter fun columns =>
    decide (columns.tenantId = envelope.tenantId ∧ columns.id = envelope.id)).flatMap
  fun columns =>
    (database.devices.filter fun device =>
      decide (device.tenantId = envelope.tenantId ∧ device.id = envelope.deviceId)).map
    fun device => { envelope, columns, device }

theorem envelope_of_joined {envelope : RequestEnvelopeRow} {row : RequestRow}
    (h : row ∈ database.joined envelope) : row.envelope = envelope := by
  obtain ⟨columns, _, hDevice⟩ := List.mem_flatMap.mp h
  obtain ⟨device, _, rfl⟩ := List.mem_map.mp hDevice
  rfl

/-- With an envelope of the tenant, only visible rows join. -/
theorem joined_visible {envelope : RequestEnvelopeRow}
    (hTenant : envelope.tenantId = tenantId) :
    (database.visible tenantId).joined envelope = database.joined envelope := by
  have hShown {ρ : Type} {owner : ρ → String} {condition : ρ → Prop}
      [DecidablePred condition] (rows : List ρ) :
      (rows.filter fun row => decide (owner row = tenantId)).filter
          (fun row => decide (owner row = envelope.tenantId ∧ condition row)) =
        rows.filter fun row => decide (owner row = envelope.tenantId ∧ condition row) := by
    rw [List.filter_filter]
    apply List.filter_congr
    intro row _
    by_cases hRow : owner row = tenantId
    · simp [hRow]
    · simp [hRow, hTenant]
  unfold ServiceDatabase.joined ServiceDatabase.visible
  rw [hShown, hShown]

/-- The policy hides no request of the tenant from a query. -/
theorem requestsOf_visible (condition : RequestRow → Bool) :
    (database.visible tenantId).requestsOf tenantId condition =
      database.requestsOf tenantId condition := by
  have hOf (database : ServiceDatabase) : database.requestsOf tenantId condition =
      database.requestEnvelopes.flatMap fun envelope =>
        (database.joined envelope).filter fun row =>
          decide (row.envelope.tenantId = tenantId) && condition row :=
    List.filter_flatMap
  rw [hOf, hOf]
  change (database.requestEnvelopes.filter fun row =>
    decide (row.tenantId = tenantId)).flatMap _ = _
  have hHidden : ∀ envelope : RequestEnvelopeRow,
      decide (envelope.tenantId = tenantId) ≠ true →
        (database.joined envelope).filter (fun row =>
          decide (row.envelope.tenantId = tenantId) && condition row) = [] := by
    intro envelope hEnvelope
    rw [List.filter_eq_nil_iff]
    intro row hRow
    rw [envelope_of_joined hRow]
    simp [hEnvelope]
  rw [← flatMap_filter hHidden]
  apply List.flatMap_congr
  intro envelope hEnvelope
  rw [joined_visible (of_decide_eq_true (List.mem_filter.mp hEnvelope).2)]

theorem tenant_of_requestsOf {condition : RequestRow → Bool} {row : RequestRow}
    (h : row ∈ database.requestsOf tenantId condition) : row.key.tenantId = tenantId := by
  obtain ⟨-, hRow⟩ := List.mem_filter.mp h
  rw [Bool.and_eq_true, decide_eq_true_eq] at hRow
  exact hRow.1

theorem toProjection_visible {tables : Tables} {row : RequestRow}
    (hTenant : row.key.tenantId = tenantId) :
    toProjection (tables.visible tenantId) row = toProjection tables row := by
  have hSyncState : Table.lookup SyncStateRow.key row.key
      (tables.visible tenantId).projectionSyncStates =
        Table.lookup SyncStateRow.key row.key tables.projectionSyncStates :=
    lookup_filter fun found hFound => decide_eq_true (by rw [hFound, hTenant])
  unfold toProjection
  rw [projectionOf_visible hTenant, hSyncState]

theorem getByPublicId_visible (scope : TenantScope) (requestPublicId : String) :
    getByPublicId scope requestPublicId (database.visible scope.tenantId) =
      getByPublicId scope requestPublicId database := by
  unfold getByPublicId
  rw [requestsOf_visible]
  congr 2
  funext _
  refine congrArg Except.ok (Option.map_congr fun row hRow => ?_)
  exact toProjection_visible (tenant_of_requestsOf (List.mem_of_mem_head? hRow))

theorem listForDevice_visible (scope : TenantScope) (devicePublicId : String)
    (limit : Number) :
    listForDevice scope devicePublicId limit (database.visible scope.tenantId) =
      listForDevice scope devicePublicId limit database := by
  unfold listForDevice
  rw [requestsOf_visible]
  congr 2
  funext _
  congr 2
  funext limit
  refine congrArg Except.ok (List.map_congr_left fun row hRow => ?_)
  have hMem := (List.mem_insertionSort _).mp (List.mem_of_mem_take hRow)
  exact toProjection_visible (tenant_of_requestsOf hMem)

theorem getScopedRequest_visible (scope : TenantScope) (requestPublicId : String) :
    getScopedRequest scope requestPublicId (database.visible scope.tenantId) =
      getScopedRequest scope requestPublicId database := by
  unfold getScopedRequest
  rw [requestsOf_visible]

end Reads

/-! ### Calls -/

section Calls

variable [Cryptography]

/-- The work of a tenant does to what it sees what it does to the whole database, and
other tenants see what they saw before. -/
structure WorksWithin (scope : TenantScope) (work : Work) : Prop where
  visible : ∀ database, work.perform scope (database.visible scope.tenantId) =
    (work.perform scope database).map fun done =>
      (done.1, done.2.visible scope.tenantId)
  others : ∀ {before after outcome}, work.perform scope before = .ok (outcome, after) →
    ∀ other ≠ scope.tenantId, after.visible other = before.visible other

omit [Cryptography] in
theorem transact_visible {α : Type} {tenantId : String} {tx : Tx α} {outcome : α → Outcome}
    (h : Within tenantId tx) (database : ServiceDatabase) :
    (database.visible tenantId).transact tx outcome =
      (database.transact tx outcome).map fun done => (done.1, done.2.visible tenantId) := by
  unfold ServiceDatabase.transact
  change (tx (database.toDatabase.visible tenantId)).map _ = _
  rw [h.visible]
  cases tx database.toDatabase <;> rfl

omit [Cryptography] in
theorem transact_others {α : Type} {tenantId : String} {tx : Tx α} {result : α → Outcome}
    (h : Within tenantId tx) {before after : ServiceDatabase} {outcome : Outcome}
    (hDone : before.transact tx result = .ok (outcome, after)) {other : String}
    (hOther : other ≠ tenantId) : after.visible other = before.visible other := by
  obtain ⟨⟨value, database⟩, hTx, hPair⟩ := map_eq_ok_iff.mp hDone
  obtain ⟨-, rfl⟩ := Prod.mk.inj hPair
  unfold ServiceDatabase.visible
  rw [h.others hTx other hOther]

theorem worksWithin_of_transact {α : Type} {scope : TenantScope} {work : Work} {tx : Tx α}
    {result : α → Outcome} (h : Within scope.tenantId tx)
    (hWork : ∀ database, work.perform scope database = database.transact tx result) :
    WorksWithin scope work where
  visible database := by
    rw [hWork, hWork, transact_visible h]
  others := by
    intro before after outcome hDone other hOther
    rw [hWork] at hDone
    exact transact_others h hDone hOther

theorem worksWithin_of_answer {α : Type} {scope : TenantScope} {work : Work}
    {read : ServiceDatabase → Except String α} {result : α → Outcome}
    (hRead : ∀ database : ServiceDatabase,
      read (database.visible scope.tenantId) = read database)
    (hWork : ∀ database, work.perform scope database = database.answer read result) :
    WorksWithin scope work where
  visible database := by
    rw [hWork, hWork, ServiceDatabase.answer, ServiceDatabase.answer, hRead]
    cases read database <;> rfl
  others := by
    intro before after outcome hDone other _
    rw [hWork] at hDone
    obtain ⟨value, -, hPair⟩ := map_eq_ok_iff.mp hDone
    obtain ⟨-, rfl⟩ := Prod.mk.inj hPair
    rfl

theorem worksWithin (scope : TenantScope) (work : Work) : WorksWithin scope work := by
  cases work with
  | applyVerifiedEvent event =>
      exact worksWithin_of_transact (applyVerifiedEvent_within scope event) fun _ => rfl
  | replaceFromVerifiedResync requestPublicId events =>
      have hWork (database : ServiceDatabase) :
          (Work.replaceFromVerifiedResync requestPublicId events).perform scope database =
            database.transact (replaceFromVerifiedResync scope requestPublicId events)
              fun _ => .replaced := rfl
      exact worksWithin_of_transact
        (replaceFromVerifiedResync_within scope requestPublicId events) hWork
  | recordVerifiedCeremony requestPublicId ceremony decisionPublicId =>
      exact worksWithin_of_transact (recordVerifiedCeremony_within scope requestPublicId
        ceremony decisionPublicId) fun _ => rfl
  | getByPublicId requestPublicId =>
      exact worksWithin_of_answer (fun _ => getByPublicId_visible scope requestPublicId)
        fun _ => rfl
  | listForDevice devicePublicId limit =>
      exact worksWithin_of_answer (fun _ => listForDevice_visible scope devicePublicId
        limit) fun _ => rfl
  | getScopedRequest requestPublicId =>
      exact worksWithin_of_answer (fun _ => getScopedRequest_visible scope requestPublicId)
        fun _ => rfl

/-- The tenant of a call: the uuid of its session, whatever the case of its text. -/
def ServiceCall.tenantId (call : ServiceCall) : String :=
  uuidText call.session.tenantId

omit [Cryptography] in
theorem isUuid_of_scope {session : VerifiedAccountSession} {scope : TenantScope}
    (h : tenantScopeFromVerifiedSession session = .ok scope) :
    isUuid session.tenantId = true ∧ scope.tenantId = session.tenantId := by
  simp only [tenantScopeFromVerifiedSession, requireUuid, bind_eq_ok_iff, pure_eq_ok,
    Except.ok.injEq, rejectIf_eq_ok_iff, Bool.not_eq_false] at h
  obtain ⟨_, ⟨_, hTenant, rfl⟩, _, -, rfl⟩ := h
  exact ⟨hTenant, rfl⟩

omit [Cryptography] in
/-- Sessions with a scope are of one tenant exactly when their uuids have one value. -/
theorem ServiceCall.tenantId_eq_iff {first second : ServiceCall}
    {firstScope secondScope : TenantScope}
    (hFirst : tenantScopeFromVerifiedSession first.session = .ok firstScope)
    (hSecond : tenantScopeFromVerifiedSession second.session = .ok secondScope) :
    first.tenantId = second.tenantId ↔
      uuidValue first.session.tenantId = uuidValue second.session.tenantId :=
  uuidText_eq_iff (isUuid_of_scope hFirst).1 (isUuid_of_scope hSecond).1

omit [Cryptography] in
theorem tenantId_of_scope {call : ServiceCall} {scope : TenantScope}
    (h : tenantScopeFromVerifiedSession call.session = .ok scope) :
    scope.cast.tenantId = call.tenantId :=
  congrArg uuidText (isUuid_of_scope h).2

/-- The whole of a call respects the view of its tenant. -/
theorem perform_visible (database : ServiceDatabase) (call : ServiceCall) :
    call.perform (database.visible call.tenantId) =
      (call.perform database).map fun done => (done.1, done.2.visible call.tenantId) := by
  unfold ServiceCall.perform
  cases hScope : tenantScopeFromVerifiedSession call.session with
  | error message => rfl
  | ok scope =>
      rw [← tenantId_of_scope hScope]
      exact (worksWithin scope.cast call.work).visible database

theorem step_visible (database : ServiceDatabase) (call : ServiceCall) :
    (database.visible call.tenantId).step call =
      (database.step call).visible call.tenantId := by
  unfold ServiceDatabase.step
  rw [perform_visible]
  cases call.perform database <;> rfl

theorem outcome_visible (database : ServiceDatabase) (call : ServiceCall) :
    (database.visible call.tenantId).outcome call = database.outcome call := by
  unfold ServiceDatabase.outcome
  rw [perform_visible]
  cases call.perform database <;> rfl

theorem step_others (database : ServiceDatabase) (call : ServiceCall) {other : String}
    (hOther : other ≠ call.tenantId) :
    (database.step call).visible other = database.visible other := by
  unfold ServiceDatabase.step
  cases hPerform : call.perform database with
  | error message => rfl
  | ok done =>
      obtain ⟨scope, hScope, hWork⟩ := bind_eq_ok_iff.mp hPerform
      refine (worksWithin scope.cast call.work).others hWork other ?_
      rw [tenantId_of_scope hScope]
      exact hOther

theorem tenants_isolated_step :
    Isolated ServiceDatabase.step ServiceDatabase.outcome ServiceCall.tenantId
      ServiceDatabase.visible where
  answer := by
    intro first second call hSame
    rw [← outcome_visible first, ← outcome_visible second, hSame]
  own := by
    intro first second call hSame
    rw [← step_visible, ← step_visible, hSame]
  others := fun database call _ => step_others database call

/-- Whatever calls the tenants make and in whatever order, a tenant gets the answers and
keeps the rows that it would have in a database of its own, by its own calls alone.  Two
spellings of a uuid are one tenant (`ServiceCall.tenantId_eq_iff`). -/
theorem tenants_isolated (tenantId : String) (start : ServiceDatabase)
    (calls : List ServiceCall) :
    let own := calls.filter fun call => decide (call.tenantId = tenantId)
    answersOf ServiceDatabase.step ServiceDatabase.outcome ServiceCall.tenantId tenantId
        start calls =
      answersOf ServiceDatabase.step ServiceDatabase.outcome ServiceCall.tenantId tenantId
        (start.visible tenantId) own ∧
    (run ServiceDatabase.step start calls).visible tenantId =
      (run ServiceDatabase.step (start.visible tenantId) own).visible tenantId :=
  tenants_isolated_step.answers_purge tenantId (start.visible_visible tenantId).symm calls

end Calls

end Hosted
end RootPermit
