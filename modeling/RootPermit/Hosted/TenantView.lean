import RootPermit.Hosted.ProjectionHistory

/-!
# What a tenant sees of the tables

Every table is protected by a row policy: inside a transaction of a tenant only its rows
are visible (`Tables.visible`), and only such rows may be written.  The statements of the
repositories name the tenant as well.  Here both are shown to agree: a statement does the
same to the visible rows as to the whole tables, and it leaves the rows of other tenants
as they are (`Within`).
-/

namespace RootPermit
namespace Hosted

open Foundation

/-! ### The row policy -/

/-- The rows that the policy shows to a tenant. -/
def Tables.visible (tenantId : String) (tables : Tables) : Tables where
  requestEnvelopes := tables.requestEnvelopes.filter fun row =>
    decide (row.tenantId = tenantId)
  credentialBindings := tables.credentialBindings.filter fun row =>
    decide (row.tenantId = tenantId)
  lifecycleProjections := tables.lifecycleProjections.filter fun row =>
    decide (row.key.tenantId = tenantId)
  projectionSyncStates := tables.projectionSyncStates.filter fun row =>
    decide (row.key.tenantId = tenantId)
  outbox := tables.outbox.filter fun row => decide (row.tenantId = tenantId)
  decisions := tables.decisions.filter fun row => decide (row.key.tenantId = tenantId)

/-- A column that names the part of a row is a key when it is one in every part. -/
theorem keyed_iff_parts {ρ κ π : Type} [DecidableEq κ] [DecidableEq π] {column : ρ → κ}
    {part : ρ → π}
    (hPart : ∀ first second, column first = column second → part first = part second)
    {rows : List ρ} :
    Table.Keyed column rows ↔
      ∀ value, Table.Keyed column (rows.filter fun row => decide (part row = value)) := by
  constructor
  · intro h value
    exact h.sublist (List.filter_sublist.map column)
  · intro h
    induction rows with
    | nil => exact List.nodup_nil
    | cons row rest ih =>
        refine List.nodup_cons.mpr ⟨?_, ih fun value => ?_⟩
        · intro hMem
          obtain ⟨other, hOther, hSame⟩ := List.mem_map.mp hMem
          have hOwn := h (part row)
          rw [List.filter_cons_of_pos (by simp)] at hOwn
          refine (List.nodup_cons.mp hOwn).1 (List.mem_map.mpr ⟨other, ?_, hSame⟩)
          rw [List.mem_filter]
          exact ⟨hOther, decide_eq_true (hPart other row hSame)⟩
        · exact (h value).sublist
            (((List.sublist_cons_self row rest).filter _).map column)

/-- The constraints of the tables are those of what each tenant sees, but for the key of
the envelopes, which no tenant is part of. -/
theorem constraints_iff_visible {tables : Tables} :
    Constraints tables ↔
      Table.Keyed RequestEnvelopeRow.id tables.requestEnvelopes ∧
        ∀ tenantId, Constraints (tables.visible tenantId) := by
  constructor
  · intro h
    refine ⟨h.requestKey, fun tenantId => ?_⟩
    have hChecks {ρ : Type} {P : ρ → Prop} {rows : List ρ} {shown : ρ → Bool}
        (hAll : ∀ row ∈ rows, P row) : ∀ row ∈ rows.filter shown, P row :=
      fun row hRow => hAll row (List.mem_filter.mp hRow).1
    have hKeys {ρ κ : Type} [DecidableEq κ] {column : ρ → κ} {rows : List ρ}
        {shown : ρ → Bool} (hKey : Table.Keyed column rows) :
        Table.Keyed column (rows.filter shown) :=
      hKey.sublist (List.filter_sublist.map column)
    refine ⟨hKeys h.requestKey, hKeys h.requestPublicId, hKeys h.credentialPublicId,
      hKeys h.projectionSequence, hKeys h.projectionDigest, hChecks h.projectionChecks,
      hKeys h.syncState, hChecks h.syncChecks, ?_, hKeys h.decisionPublicId,
      hKeys h.decisionAssertion, hChecks h.decisionChecks⟩
    rw [Tables.visible, List.filter_comm]
    exact hKeys h.outboxDedupe
  · rintro ⟨hId, h⟩
    have hChecks {ρ : Type} {P : ρ → Prop} {rows : List ρ} {part : ρ → String}
        (hAll : ∀ tenantId, ∀ row ∈ rows.filter fun row => decide (part row = tenantId),
          P row) : ∀ row ∈ rows, P row :=
      fun row hRow => hAll (part row) row
        (List.mem_filter.mpr ⟨hRow, decide_eq_true rfl⟩)
    refine ⟨hId, ?_, ?_, ?_, ?_, hChecks fun tenantId => (h tenantId).projectionChecks,
      ?_, hChecks fun tenantId => (h tenantId).syncChecks, ?_, ?_, ?_,
      hChecks fun tenantId => (h tenantId).decisionChecks⟩
    · exact (keyed_iff_parts fun _ _ hSame => congrArg Prod.fst hSame).mpr
        fun tenantId => (h tenantId).requestPublicId
    · exact (keyed_iff_parts fun _ _ hSame => congrArg Prod.fst hSame).mpr
        fun tenantId => (h tenantId).credentialPublicId
    · exact (keyed_iff_parts fun _ _ hSame =>
        congrArg (RequestKey.tenantId ∘ Prod.fst) hSame).mpr
        fun tenantId => (h tenantId).projectionSequence
    · exact (keyed_iff_parts fun _ _ hSame =>
        congrArg (RequestKey.tenantId ∘ Prod.fst) hSame).mpr
        fun tenantId => (h tenantId).projectionDigest
    · exact (keyed_iff_parts fun _ _ hSame => congrArg RequestKey.tenantId hSame).mpr
        fun tenantId => (h tenantId).syncState
    · refine (keyed_iff_parts fun _ _ hSame => congrArg Prod.fst hSame).mpr
        fun tenantId => ?_
      rw [List.filter_comm]
      exact (h tenantId).outboxDedupe
    · exact (keyed_iff_parts fun _ _ hSame => congrArg Prod.fst hSame).mpr
        fun tenantId => (h tenantId).decisionPublicId
    · exact (keyed_iff_parts fun _ _ hSame =>
        congrArg (RequestKey.tenantId ∘ Prod.fst) hSame).mpr
        fun tenantId => (h tenantId).decisionAssertion

/-- The database that a transaction of the tenant works on. -/
def Database.visible (tenantId : String) (database : Database) : Database where
  toTables := database.toTables.visible tenantId
  constraints := (constraints_iff_visible.mp database.constraints).2 tenantId

theorem Database.ext_tables {first second : Database}
    (h : first.toTables = second.toTables) : first = second := by
  cases first
  cases second
  cases h
  rfl

/-! ### Transactions of a tenant -/

/-- The transaction does to what the tenant sees what it does to the whole database, and
other tenants see what they saw before. -/
structure Within {α : Type} (tenantId : String) (tx : Tx α) : Prop where
  visible : ∀ database, tx (database.visible tenantId) =
    (tx database).map fun done => (done.1, done.2.visible tenantId)
  others : ∀ {before after value}, tx before = .ok (value, after) →
    ∀ other ≠ tenantId, after.visible other = before.visible other

section Transactions

variable {α β : Type} {tenantId : String}

theorem Within.pure (value : α) : Within tenantId (Pure.pure value : Tx α) where
  visible _ := rfl
  others := by
    rintro before after found hFound other -
    cases hFound
    rfl

theorem Within.bind {tx : Tx α} {rest : α → Tx β} (hFirst : Within tenantId tx)
    (hRest : ∀ value, Within tenantId (rest value)) : Within tenantId (tx >>= rest) where
  visible := by
    intro database
    change (tx (database.visible tenantId) >>= fun done => rest done.1 done.2) =
      ((tx database) >>= fun done => rest done.1 done.2).map _
    rw [hFirst.visible]
    cases tx database with
    | error message => rfl
    | ok done => exact (hRest done.1).visible done.2
  others := by
    intro before after value hDone other hOther
    change (tx before >>= fun done => rest done.1 done.2) = _ at hDone
    obtain ⟨⟨found, between⟩, hFound, hNext⟩ := bind_eq_ok_iff.mp hDone
    exact ((hRest found).others hNext other hOther).trans
      (hFirst.others hFound other hOther)

theorem Within.ite {condition : Prop} [Decidable condition] {first second : Tx α}
    (hFirst : Within tenantId first) (hSecond : Within tenantId second) :
    Within tenantId (if condition then first else second) := by
  split
  · exact hFirst
  · exact hSecond

/-- A query of the tenant reads only what the tenant sees. -/
theorem Within.query {read : Tables → Except String α}
    (hRead : ∀ tables, read (tables.visible tenantId) = read tables) :
    Within tenantId (Hosted.query read) where
  visible := by
    intro database
    rw [Hosted.query, Hosted.query]
    change (read (database.toTables.visible tenantId)).map _ = _
    rw [hRead]
    cases read database.toTables <;> rfl
  others := by
    intro before after value hDone other _
    rw [(query_eq_ok_iff.mp hDone).2]

/-- What follows a query may depend on where its answer comes from. -/
theorem Within.query_bind {read : Tables → Except String α} {rest : α → Tx β}
    (hRead : ∀ tables, read (tables.visible tenantId) = read tables)
    (hRest : ∀ value tables, read tables = .ok value → Within tenantId (rest value)) :
    Within tenantId (Hosted.query read >>= rest) where
  visible := by
    intro database
    change (Hosted.query read (database.visible tenantId) >>= fun done =>
      rest done.1 done.2) = ((Hosted.query read database) >>= fun done =>
        rest done.1 done.2).map _
    rw [(Within.query hRead).visible, Hosted.query]
    cases hFound : read database.toTables with
    | error message => rfl
    | ok value => exact (hRest value database.toTables hFound).visible database
  others := by
    intro before after value hDone other hOther
    change (Hosted.query read before >>= fun done => rest done.1 done.2) = _ at hDone
    obtain ⟨⟨found, between⟩, hFound, hNext⟩ := bind_eq_ok_iff.mp hDone
    obtain ⟨hValue, rfl⟩ := query_eq_ok_iff.mp hFound
    exact (hRest found before.toTables hValue).others hNext other hOther

/-- A statement of the tenant writes only rows that the policy lets it write. -/
structure Writes (tenantId : String) (change : Tables → Tables) : Prop where
  visible : ∀ tables, (change tables).visible tenantId = change (tables.visible tenantId)
  others : ∀ tables, ∀ other ≠ tenantId,
    (change tables).visible other = tables.visible other
  requestEnvelopes : ∀ tables, (change tables).requestEnvelopes = tables.requestEnvelopes

/-- Whether a statement violates a constraint, the tenant sees itself. -/
theorem Writes.constraints_iff {change : Tables → Tables} (h : Writes tenantId change)
    (database : Database) :
    Constraints (change (database.visible tenantId).toTables) ↔
      Constraints (change database.toTables) := by
  change Constraints (change (database.toTables.visible tenantId)) ↔ _
  rw [← h.visible]
  constructor
  · intro hVisible
    refine constraints_iff_visible.mpr ⟨?_, fun other => ?_⟩
    · rw [h.requestEnvelopes]
      exact database.constraints.requestKey
    · by_cases hOther : other = tenantId
      · rw [hOther]
        exact hVisible
      · rw [h.others database.toTables other hOther]
        exact (database.visible other).constraints
  · exact fun hAll => (constraints_iff_visible.mp hAll).2 tenantId

theorem Within.execute {change : Tables → Tables} (h : Writes tenantId change) :
    Within tenantId (Hosted.execute change) where
  visible := by
    intro database
    by_cases hKept : Constraints (change database.toTables)
    · have hVisible := (h.constraints_iff database).mpr hKept
      rw [Hosted.execute, Hosted.execute, dif_pos hVisible, dif_pos hKept]
      refine congrArg (fun after => Except.ok ((), after)) (Database.ext_tables ?_)
      exact (h.visible database.toTables).symm
    · have hVisible := mt (h.constraints_iff database).mp hKept
      rw [Hosted.execute, Hosted.execute, dif_neg hVisible, dif_neg hKept]
      rfl
  others := by
    intro before after value hDone other hOther
    apply Database.ext_tables
    change after.toTables.visible other = before.toTables.visible other
    rw [execute_eq_ok hDone]
    exact h.others before.toTables other hOther

end Transactions

/-! ### Statements -/

section Statements

variable {ρ κ : Type} [DecidableEq κ]

/-- The policy hides no row that a lookup of the tenant finds. -/
theorem lookup_filter {column : ρ → κ} {value : κ} {shown : ρ → Bool} {rows : List ρ}
    (hShown : ∀ row, column row = value → shown row = true) :
    Table.lookup column value (rows.filter shown) = Table.lookup column value rows := by
  rw [Table.lookup, Table.lookup, List.find?_filter]
  congr 1
  funext row
  by_cases hRow : column row = value
  · simp [hRow, hShown row hRow]
  · simp [hRow]

theorem select_filter {column : ρ → κ} {value : κ} {shown : ρ → Bool} {rows : List ρ}
    (hShown : ∀ row, column row = value → shown row = true) :
    Table.select column value (rows.filter shown) = Table.select column value rows := by
  rw [Table.select, Table.select, List.filter_filter]
  congr 1
  funext row
  by_cases hRow : column row = value
  · simp [hRow, hShown row hRow]
  · simp [hRow]

/-- A change of the rows of one table that the policy lets the tenant make. -/
structure WritesRows (tenantId : String) (owner : ρ → String)
    (change : List ρ → List ρ) : Prop where
  own : ∀ rows, (change rows).filter (fun row => decide (owner row = tenantId)) =
    change (rows.filter fun row => decide (owner row = tenantId))
  others : ∀ rows, ∀ other ≠ tenantId,
    (change rows).filter (fun row => decide (owner row = other)) =
      rows.filter fun row => decide (owner row = other)

namespace WritesRows

variable {tenantId : String} {owner : ρ → String} {column : ρ → κ} {row : ρ}

omit [DecidableEq κ] in
theorem insert (hOwner : owner row = tenantId) :
    WritesRows tenantId owner fun rows => rows ++ [row] where
  own rows := by
    rw [List.filter_append, List.filter_cons_of_pos (by simp [hOwner]), List.filter_nil]
  others rows other hOther := by
    have hHidden : owner row ≠ other := fun hSame => hOther (hSame.symm.trans hOwner)
    rw [List.filter_append, List.filter_cons_of_neg (by simpa using hHidden),
      List.filter_nil, List.append_nil]

omit [DecidableEq κ] in
theorem delete {drop : ρ → Prop} [DecidablePred drop]
    (hOwner : ∀ row, drop row → owner row = tenantId) :
    WritesRows tenantId owner fun rows => rows.filter fun row => decide (¬ drop row) where
  own rows := List.filter_comm _ _ _
  others rows other hOther := by
    rw [List.filter_filter]
    apply List.filter_congr
    intro row _
    by_cases hRow : owner row = other
    · have hKept : ¬ drop row := fun hDrop => hOther (hRow.symm.trans (hOwner row hDrop))
      simp [hRow, hKept]
    · simp [hRow]

omit [DecidableEq κ] in
/-- Nothing is inserted when there is a row like it already. -/
theorem insertUnless {present : ρ → Prop} [DecidablePred present]
    (hPresent : ∀ row, present row → owner row = tenantId)
    (hOwner : owner row = tenantId) :
    WritesRows tenantId owner fun rows =>
      if ∃ found ∈ rows, present found then rows else rows ++ [row] where
  own rows := by
    have hSeen : (∃ found ∈ rows.filter fun row => decide (owner row = tenantId),
        present found) ↔ ∃ found ∈ rows, present found := by
      constructor
      · rintro ⟨found, hFound, hRow⟩
        exact ⟨found, (List.mem_filter.mp hFound).1, hRow⟩
      · rintro ⟨found, hFound, hRow⟩
        exact ⟨found, List.mem_filter.mpr ⟨hFound, decide_eq_true (hPresent found hRow)⟩,
          hRow⟩
    rw [apply_ite (List.filter _), (insert hOwner).own]
    simp only [hSeen]
  others rows other hOther := by
    rw [apply_ite (List.filter _), (insert hOwner).others rows other hOther, ite_self]

omit [DecidableEq κ] in
/-- Rows are changed in their places and keep their owner. -/
theorem update {condition : ρ → Bool} {change : ρ → ρ}
    (hCondition : ∀ found, condition found = true → owner found = tenantId)
    (hChange : ∀ found, owner (change found) = owner found) :
    WritesRows tenantId owner (Table.update condition change) where
  own rows := by
    rw [Table.update, Table.update, List.filter_map]
    congr 1
    apply List.filter_congr
    intro found _
    by_cases hFound : condition found = true
    · simp [hFound, hChange]
    · simp [hFound]
  others rows other hOther := by
    induction rows with
    | nil => rfl
    | cons found rest ih =>
        rw [Table.update] at ih ⊢
        rw [List.map_cons, List.filter_cons, List.filter_cons, ih]
        by_cases hFound : condition found = true
        · have hHidden : owner found ≠ other := by
            rw [hCondition found hFound]
            exact Ne.symm hOther
          simp [hFound, hChange, hHidden]
        · simp [hFound]

/-- The row with the key of a new one is changed, or the new one is inserted. -/
theorem upsert {change : ρ → ρ}
    (hColumn : ∀ found, column found = column row → owner found = tenantId)
    (hChange : ∀ found, owner (change found) = owner found) :
    WritesRows tenantId owner fun rows =>
      if (Table.lookup column (column row) rows).isSome then
        Table.update (fun found => decide (column found = column row)) change rows
      else rows ++ [row] := by
  have hUpdate : WritesRows tenantId owner
      (Table.update (fun found => decide (column found = column row)) change) :=
    update (fun found hFound => hColumn found (of_decide_eq_true hFound)) hChange
  have hInsert : WritesRows tenantId owner fun rows => rows ++ [row] :=
    insert (hColumn row rfl)
  refine ⟨fun rows => ?_, fun rows other hOther => ?_⟩
  · rw [apply_ite (List.filter _), hInsert.own, hUpdate.own,
      lookup_filter fun found hFound => decide_eq_true (hColumn found hFound)]
  · rw [apply_ite (List.filter _), hInsert.others rows other hOther,
      hUpdate.others rows other hOther, ite_self]

end WritesRows

end Statements

/-! ### The statements of the repositories -/

section Repositories

variable {tenantId : String}

theorem Writes.lifecycleProjections {change : List ProjectionRow → List ProjectionRow}
    (h : WritesRows tenantId (fun row => row.key.tenantId) change) :
    Writes tenantId fun tables =>
      { tables with lifecycleProjections := change tables.lifecycleProjections } where
  visible tables := congrArg
    (fun rows => { tables.visible tenantId with lifecycleProjections := rows })
    (h.own tables.lifecycleProjections)
  others tables other hOther := congrArg
    (fun rows => { tables.visible other with lifecycleProjections := rows })
    (h.others tables.lifecycleProjections other hOther)
  requestEnvelopes _ := rfl

theorem Writes.projectionSyncStates {change : List SyncStateRow → List SyncStateRow}
    (h : WritesRows tenantId (fun row => row.key.tenantId) change) :
    Writes tenantId fun tables =>
      { tables with projectionSyncStates := change tables.projectionSyncStates } where
  visible tables := congrArg
    (fun rows => { tables.visible tenantId with projectionSyncStates := rows })
    (h.own tables.projectionSyncStates)
  others tables other hOther := congrArg
    (fun rows => { tables.visible other with projectionSyncStates := rows })
    (h.others tables.projectionSyncStates other hOther)
  requestEnvelopes _ := rfl

theorem Writes.outbox {change : List OutboxRow → List OutboxRow}
    (h : WritesRows tenantId OutboxRow.tenantId change) :
    Writes tenantId fun tables => { tables with outbox := change tables.outbox } where
  visible tables := congrArg (fun rows => { tables.visible tenantId with outbox := rows })
    (h.own tables.outbox)
  others tables other hOther := congrArg
    (fun rows => { tables.visible other with outbox := rows })
    (h.others tables.outbox other hOther)
  requestEnvelopes _ := rfl

theorem Writes.decisions {change : List DecisionRow → List DecisionRow}
    (h : WritesRows tenantId (fun row => row.key.tenantId) change) :
    Writes tenantId fun tables =>
      { tables with decisions := change tables.decisions } where
  visible tables := congrArg
    (fun rows => { tables.visible tenantId with decisions := rows })
    (h.own tables.decisions)
  others tables other hOther := congrArg
    (fun rows => { tables.visible other with decisions := rows })
    (h.others tables.decisions other hOther)
  requestEnvelopes _ := rfl

/-! #### Queries -/

variable {tables : Tables} {key : RequestKey}

theorem scopedRequestForUpdate_visible (scope : TenantScope) (requestPublicId : String)
    (tables : Tables) :
    scopedRequestForUpdate scope requestPublicId (tables.visible scope.tenantId) =
      scopedRequestForUpdate scope requestPublicId tables := by
  unfold scopedRequestForUpdate Tables.visible
  rw [lookup_filter fun row hRow => decide_eq_true (congrArg Prod.fst hRow)]

theorem projectionOf_visible (hKey : key.tenantId = tenantId) :
    (tables.visible tenantId).projectionOf key = tables.projectionOf key := by
  unfold Tables.projectionOf Tables.visible
  rw [select_filter fun row hRow => decide_eq_true (by rw [hRow, hKey])]

theorem frozenGap_visible (hKey : key.tenantId = tenantId) :
    (tables.visible tenantId).frozenGap key = tables.frozenGap key := by
  unfold Tables.frozenGap Tables.visible
  rw [lookup_filter fun row hRow => decide_eq_true (by rw [hRow, hKey])]

theorem findPinnedRelation_visible (scope : TenantScope)
    (requestPublicId credentialPublicId : String) (tables : Tables) :
    findPinnedRelation scope requestPublicId credentialPublicId
        (tables.visible scope.tenantId) =
      findPinnedRelation scope requestPublicId credentialPublicId tables := by
  have hShown : ∀ {ρ : Type} {tenantOf publicIdOf : ρ → String} {publicId : String}
      (row : ρ), (tenantOf row, publicIdOf row) = (scope.tenantId, publicId) →
        decide (tenantOf row = scope.tenantId) = true :=
    fun row hRow => decide_eq_true (congrArg Prod.fst hRow)
  unfold findPinnedRelation
  simp only [projectionOf_visible, frozenGap_visible]
  rw [Tables.visible, lookup_filter hShown, lookup_filter hShown]

/-! #### Transactions -/

theorem Within.constant {α : Type} (result : Except String α) :
    Within tenantId (Hosted.query fun _ => result) :=
  .query fun _ => rfl

theorem insertProjection_within (hKey : key.tenantId = tenantId) (sequence : Int)
    (event : VerifiedLifecycleEvent) (frozenGap : Bool) :
    Within tenantId (insertProjection key sequence event frozenGap) :=
  .execute (.lifecycleProjections (.insert hKey))

theorem upsertSyncState_within {row : SyncStateRow} {change : SyncStateRow → SyncStateRow}
    (hKey : row.key.tenantId = tenantId) (hChange : ∀ found, (change found).key = found.key) :
    Within tenantId (upsertSyncState row change) := by
  refine .execute (.projectionSyncStates (.upsert ?_ ?_))
  · intro found hFound
    rw [hFound]
    exact hKey
  · intro found
    rw [hChange]

theorem markVerified_within (hKey : key.tenantId = tenantId) (sequence : Int) :
    Within tenantId (markVerified key sequence) :=
  upsertSyncState_within hKey fun _ => rfl

theorem freezeAndQueueResync_within [Cryptography] (hKey : key.tenantId = tenantId)
    (observedDigest : Bytes) :
    Within tenantId (freezeAndQueueResync key observedDigest) := by
  refine .bind (upsertSyncState_within hKey fun _ => rfl) fun _ => ?_
  exact .execute (.outbox (.insertUnless (fun _ hRow => hRow.1.trans hKey) hKey))

theorem applyVerifiedEvent_within [Cryptography] (scope : TenantScope)
    (event : VerifiedLifecycleEvent) :
    Within scope.tenantId (applyVerifiedEvent scope event) := by
  refine .bind (.constant _) fun sequence => ?_
  refine .query_bind (scopedRequestForUpdate_visible scope _) fun key tables hFound => ?_
  have hKey : key.tenantId = scope.tenantId := scopedRequest_tenant hFound
  refine .bind (.query fun tables => congrArg Except.ok (projectionOf_visible hKey))
    fun rows => ?_
  have hFreeze : Within scope.tenantId (do
      freezeAndQueueResync key event.eventDigest
      return ProjectionApplyResult.frozenGap) :=
    .bind (freezeAndQueueResync_within hKey _) fun _ => .pure _
  split
  · exact .ite (.pure _) hFreeze
  · refine .ite hFreeze ?_
    refine .bind (insertProjection_within hKey sequence event false) fun _ => ?_
    exact .bind (markVerified_within hKey sequence) fun _ => .pure _

theorem insertProjections_within (hKey : key.tenantId = tenantId)
    (events : List (Int × VerifiedLifecycleEvent)) :
    Within tenantId (insertProjections key events) := by
  induction events with
  | nil => exact .pure _
  | cons first rest ih => exact .bind (insertProjection_within hKey _ _ false) fun _ => ih

theorem replaceFromVerifiedResync_within (scope : TenantScope) (requestPublicId : String)
    (events : List VerifiedLifecycleEvent) :
    Within scope.tenantId (replaceFromVerifiedResync scope requestPublicId events) := by
  refine .bind (.constant _) fun _ => .bind (.constant _) fun _ => ?_
  refine .bind (.constant _) fun sequences => .bind (.constant _) fun _ => ?_
  refine .query_bind (scopedRequestForUpdate_visible scope _) fun key tables hFound => ?_
  have hKey : key.tenantId = scope.tenantId := scopedRequest_tenant hFound
  have hRows : WritesRows scope.tenantId (fun row : ProjectionRow => row.key.tenantId)
      fun rows => rows.filter fun row => decide (¬ row.key = key) :=
    .delete fun row hRow => by rw [hRow, hKey]
  refine .bind (.execute (.lifecycleProjections hRows)) fun _ => ?_
  refine .bind (insertProjections_within hKey _) fun _ => ?_
  refine .bind (markVerified_within hKey _) fun _ => ?_
  exact .execute (.outbox (.delete fun _ hRow => hRow.1.trans hKey))

theorem recordVerifiedCeremony_within (scope : TenantScope) (requestPublicId : String)
    (ceremony : VerifiedApprovalCeremony) (decisionPublicId : String) :
    Within scope.tenantId
      (recordVerifiedCeremony scope requestPublicId ceremony decisionPublicId) := by
  refine .bind (.constant _) fun _ => .bind (.constant _) fun _ => ?_
  refine .bind (.constant _) fun _ => ?_
  refine .bind (.query fun tables => ?_) fun relation => ?_
  · rw [findPinnedRelation_visible]
  refine .bind (.constant _) fun _ => .bind (.constant _) fun _ => ?_
  refine .bind (.query fun tables => ?_) fun _ => ?_
  · -- A decision with this tenant in its key is one that the tenant sees.
    have hSeen : ((scope.tenantId, decisionPublicId) ∈
        (tables.visible scope.tenantId).decisions.map
          fun row => (row.key.tenantId, row.publicId)) ↔
        (scope.tenantId, decisionPublicId) ∈
          tables.decisions.map fun row => (row.key.tenantId, row.publicId) := by
      rw [← not_iff_not, ← Table.lookup_eq_none_iff, ← Table.lookup_eq_none_iff,
        Tables.visible, lookup_filter fun row hRow =>
          decide_eq_true (congrArg Prod.fst hRow)]
    simp only [hSeen]
  refine .bind (.execute (.decisions (.insert ?_))) fun _ => .pure _
  rfl

end Repositories

end Hosted
end RootPermit
