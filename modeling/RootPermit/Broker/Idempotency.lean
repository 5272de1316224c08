import RootPermit.Broker.Soundness

/-!
# Submissions are idempotent

A requester names each submission with an operation key.  The row that the first
submission under a key leaves behind answers every later one: the lookup by UID and
key comes before the check of the active slot, and no call takes the row away or
changes what was submitted.

* `lookupIdempotency_of_row` — in a sound database every stored submission is found
  again under its UID and its key;
* `submit_of_record` — a submission under a known key is answered by the record;
* `StoredSubmission.run` — what was created stays stored in every later store;
* `submissions_idempotent` — retries, conflicts and the submissions of other users
  after any run;
* `denied_package_no_conflict` — the policy is asked first.
-/

namespace RootPermit
namespace Broker

open Foundation Protocol

theorem RequesterUid.asDb_injective : Function.Injective RequesterUid.asDb := by
  intro first second h
  have hInt := congrArg Int64.toInt h
  rw [RequesterUid.toInt_asDb, RequesterUid.toInt_asDb] at hInt
  have hNat : first.asU32.toNat = second.asU32.toNat := by omega
  cases first
  cases second
  congr 1
  exact UInt32.toNat_inj.mp hNat

theorem PublicId.exists_parse {text : String} (h : isPublicId text = true) :
    ∃ id, PublicId.parse text = .ok id ∧ id.asStr = text :=
  ⟨⟨text, h⟩, PublicId.parse_eq_ok_iff.mpr rfl, rfl⟩

/-! ### The record of a stored submission -/

/-- The key of the unique index `requests_idempotency`. -/
def idempotencyColumn (row : RequestRow) : Int64 × String :=
  (row.requesterUid, row.operationKey)

/-- The record says what the row of the request says. -/
structure IdempotencyRecord.Of (record : IdempotencyRecord) (uid : RequesterUid)
    (row : RequestRow) : Prop where
  inputDigest : record.inputDigest.val = row.inputDigest
  requestId : record.summary.requestId.asStr = row.requestId
  requesterUid : record.summary.requesterUid = uid
  state : record.summary.state = row.state
  generation : (record.summary.generation.toNat : Int) = row.generation.toInt

section Submissions

variable [Cryptography]

/-- Every stored submission is found again under its UID and its key. -/
theorem lookupIdempotency_of_row {database : Database} {uid : RequesterUid}
    {key : OperationKey} {row : RequestRow}
    (hSound : SoundDatabase database.toTables)
    (hRow : Table.lookup idempotencyColumn (uid.asDb, key.asStr) database.requests =
      some row) :
    ∃ record, lookupIdempotency uid key database.toTables = .ok (some record) ∧
      record.Of uid row := by
  have hMem := Table.mem_of_lookup hRow
  obtain ⟨-, hDigest, hGeneration, -⟩ := database.constraints.requestChecks row hMem
  have hId : isPublicId row.requestId = true :=
    hSound.requestIds _ (List.mem_map_of_mem hMem)
  obtain ⟨requestId, hParse, hText⟩ := PublicId.exists_parse hId
  have hUid : toU32? uid.asDb.toInt = some uid.asU32 := by
    rw [toU32?_eq_some_iff, RequesterUid.toInt_asDb]
  obtain ⟨generation, hStored⟩ : ∃ generation : UInt64,
      toU64? row.generation.toInt = some generation := by
    have hSign : 0 ≤ row.generation.toInt := Int64.le_iff_toInt_le.mp hGeneration
    have hBound : row.generation.toInt < 2 ^ 63 := row.generation.toInt_lt
    refine ⟨UInt64.ofNat row.generation.toInt.toNat, toU64?_eq_some_iff.mpr ?_⟩
    have hSize : UInt64.size = 2 ^ 64 := rfl
    rw [UInt64.toNat_ofNat_of_lt' (by omega)]
    omega
  have hBytes : ByteArr.ofBytes? 32 row.inputDigest = some ⟨_, hDigest⟩ :=
    ByteArr.ofBytes?_eq_some_iff.mpr rfl
  refine ⟨{ inputDigest := ⟨_, hDigest⟩
            summary := { requestId, requesterUid := uid, state := row.state,
                         generation } }, ?_, rfl, hText, rfl, rfl,
    toU64?_eq_some_iff.mp hStored⟩
  have hLookup : Table.lookup (fun row : RequestRow =>
      (row.requesterUid, row.operationKey)) (uid.asDb, key.asStr)
      database.requests = some row := hRow
  simp only [lookupIdempotency, hLookup, hBytes, hParse, summaryFromValues, hUid,
    hStored, orFault, Except.mapError, ok_bind, pure_eq_ok]

omit [Cryptography] in
theorem lookupIdempotency_of_absent {tables : Tables} {uid : RequesterUid}
    {key : OperationKey}
    (hAbsent : Table.lookup idempotencyColumn (uid.asDb, key.asStr) tables.requests =
      none) : lookupIdempotency uid key tables = .ok none := by
  have hLookup : Table.lookup (fun row : RequestRow =>
      (row.requesterUid, row.operationKey)) (uid.asDb, key.asStr)
      tables.requests = none := hAbsent
  simp only [lookupIdempotency, hLookup]

/-! ### One submission -/

omit [Cryptography] in
/-- A transaction that begins with a read goes on with its result. -/
theorem query_bind {α β : Type} (read : Tables → Except BrokerError α)
    (next : α → Tx β) (database : Database) :
    (query read >>= next) database =
      read database.toTables >>= fun value => next value database := by
  change ((query read database) >>= fun result => next result.1 result.2) = _
  unfold query
  cases read database.toTables <;> rfl

variable {deviceId : String} {request : SubmitPackageInstall}
  {policy : PackageInstallPolicy} {database : Database}

/-- The policy is asked before anything is looked up. -/
theorem submit_of_denied
    (hDeny : policy request.requesterUid request.packageName = .deny) :
    submit deviceId request policy database = .error .policyDenied := by
  have hReject : rejectIf (policy request.requesterUid request.packageName = .deny)
      BrokerError.policyDenied = .error .policyDenied := if_pos hDeny
  rw [submit, attempt, query_bind, hReject]
  rfl

/-- A submission under a known key is answered by the record of that key. -/
theorem submit_of_record {record : IdempotencyRecord}
    (hAllow : policy request.requesterUid request.packageName = .allow)
    (hRecord : lookupIdempotency request.requesterUid request.operationKey
      database.toTables = .ok (some record)) :
    submit deviceId request policy database =
      if record.inputDigest = inputDigest request.packageName then
        .ok (.existing record.summary, database)
      else .error .idempotencyConflict := by
  have hPass : rejectIf (policy request.requesterUid request.packageName = .deny)
      BrokerError.policyDenied = .ok () := by
    rw [rejectIf_eq_ok_iff, hAllow]
    decide
  rw [submit, attempt, query_bind, hPass, ok_bind, query_bind, hRecord, ok_bind]
  by_cases hDigest : record.inputDigest = inputDigest request.packageName
  · have hSame : rejectIf (record.inputDigest ≠ inputDigest request.packageName)
        BrokerError.idempotencyConflict = .ok () :=
      rejectIf_eq_ok_iff.mpr (not_not.mpr hDigest)
    rw [if_pos hDigest]
    simp only [attempt, query_bind, hSame, ok_bind]
    rfl
  · have hConflict : rejectIf (record.inputDigest ≠ inputDigest request.packageName)
        BrokerError.idempotencyConflict = .error .idempotencyConflict :=
      if_pos hDigest
    rw [if_neg hDigest]
    simp only [attempt, query_bind, hConflict]
    rfl

omit [Cryptography] in
/-- A submission was recognised as one that is already stored. -/
def TreatedAsRetry {σ : Type} (result : Except BrokerError (SubmitOutcome × σ)) :
    Prop :=
  (∃ summary after, result = .ok (.existing summary, after)) ∨
    result = .error .idempotencyConflict

/-- A submission under a new key is not answered by a stored request. -/
theorem submit_ne_existing {summary : RequestSummary} {after : Database}
    (hAbsent : lookupIdempotency request.requesterUid request.operationKey
      database.toTables = .ok none) :
    submit deviceId request policy database ≠ .ok (.existing summary, after) := by
  intro h
  simp only [submit, run_bind_eq_ok_iff, attempt_eq_ok_iff, query_eq_ok_iff] at h
  obtain ⟨_, _, ⟨-, rfl⟩, found, _, ⟨hFound, rfl⟩, h⟩ := h
  rw [hAbsent] at hFound
  cases hFound
  simp only [run_bind_eq_ok_iff, query_eq_ok_iff, Except.ok.injEq] at h
  obtain ⟨holder, _, ⟨-, rfl⟩, h⟩ := h
  cases holder with
  | some row =>
      rw [attempt_eq_ok_iff] at h
      cases h.1
  | none =>
      -- The last step of a submission that goes on answers `created`.
      simp only [run_bind_eq_ok_iff, run_pure_eq_ok_iff] at h
      obtain ⟨_, _, -, _, _, -, _, _, -, hCreated, -⟩ := h
      cases hCreated

/-- Neither does it meet a conflict. -/
theorem submit_ne_conflict
    (hAbsent : lookupIdempotency request.requesterUid request.operationKey
      database.toTables = .ok none) :
    submit deviceId request policy database ≠ .error .idempotencyConflict := by
  intro h
  have hPolicy : Avoids .idempotencyConflict (attempt
      (rejectIf (policy request.requesterUid request.packageName = .deny)
        BrokerError.policyDenied)) := attempt_avoids (by simp)
  obtain ⟨_, _, hAllowed, h⟩ := hPolicy.later h
  obtain ⟨-, rfl⟩ := attempt_eq_ok_iff.mp hAllowed
  rcases run_bind_eq_error_iff.mp h with hLookup | ⟨found, _, hFound, h⟩
  · rw [query_eq_error_iff, hAbsent] at hLookup
    cases hLookup
  · obtain ⟨hRead, rfl⟩ := query_eq_ok_iff.mp hFound
    rw [hAbsent] at hRead
    cases hRead
    -- Behind the lookup only the two insertions and the generation can fail.
    refine absurd h (Avoids.bind (query_avoids (by simp)) ?_ _)
    intro holder _
    cases holder with
    | some row => exact attempt_avoids (by simp)
    | none =>
        have hExecute : ∀ change : Tables → Tables,
            Avoids .idempotencyConflict (execute change) :=
          fun _ => execute_avoids (by simp)
        refine (attempt_avoids ?_).bind fun generation _ =>
          (hExecute _).bind fun _ _ => (hExecute _).bind fun _ _ => .pure _
        simp

/-- A submission under a new key is created or rejected for another reason. -/
theorem submit_of_absent
    (hAbsent : lookupIdempotency request.requesterUid request.operationKey
      database.toTables = .ok none) :
    ¬ TreatedAsRetry (submit deviceId request policy database) := by
  rintro (⟨summary, after, hExisting⟩ | hConflict)
  · exact submit_ne_existing hAbsent hExisting
  · exact submit_ne_conflict hAbsent hConflict

/-- A submission that is treated as a retry has a stored row of its own user. -/
theorem row_of_retry
    (h : TreatedAsRetry (submit deviceId request policy database)) :
    ∃ row, Table.lookup idempotencyColumn
      (request.requesterUid.asDb, request.operationKey.asStr) database.requests =
        some row := by
  cases hRow : Table.lookup idempotencyColumn
      (request.requesterUid.asDb, request.operationKey.asStr) database.requests with
  | none => exact absurd h (submit_of_absent (lookupIdempotency_of_absent hRow))
  | some row => exact ⟨row, rfl⟩

/-! ### The submission that was created -/

/-- The row of a submission is stored, in whatever state it is by now. -/
def StoredSubmission (request : SubmitPackageInstall) (tables : Tables) : Prop :=
  ∃ row, tables.request? request.requestId = some row ∧
    row.requesterUid = request.requesterUid.asDb ∧
    row.operationKey = request.operationKey.asStr ∧
    row.inputDigest = (inputDigest request.packageName).val ∧
    row.generation.toInt = request.generation.toNat

theorem storedSubmission_of_created {after : Database} {summary : RequestSummary}
    (h : submit deviceId request policy database = .ok (.created summary, after)) :
    StoredSubmission request after.toTables ∧
      summary = { requestId := request.requestId
                  requesterUid := request.requesterUid
                  state := .planning
                  generation := request.generation } := by
  rcases submit_eq_ok h with ⟨-, _, hExisting⟩ |
    ⟨generation, hGeneration, hCreated, -, hAbsent, hAfter⟩
  · cases hExisting
  · refine ⟨⟨newRequest deviceId request generation, ?_, rfl, rfl, rfl,
      hGeneration⟩, SubmitOutcome.created.inj hCreated⟩
    have hRequests : after.requests =
        database.requests ++ [newRequest deviceId request generation] :=
      congrArg Tables.requests hAfter
    rw [Tables.request?] at hAbsent
    rw [Tables.request?, hRequests, Table.lookup_append, hAbsent, Option.none_or]
    exact if_pos rfl

/-- No later call takes the submission away. -/
theorem StoredSubmission.run {store : BrokerStore}
    (h : StoredSubmission request store.database.toTables) (later : List Call) :
    StoredSubmission request
      (Foundation.run BrokerStore.step store later).database.toTables := by
  obtain ⟨row, hRow, hUid, hKey, hDigest, hGeneration⟩ := h
  obtain ⟨new, hNew, hSame, -⟩ :=
    (Kept.run request.requestId store later).row row hRow
  refine ⟨new, hNew, hSame.requesterUid.trans hUid, hSame.operationKey.trans hKey,
    hSame.inputDigest.trans hDigest, ?_⟩
  rw [hSame.generation]
  exact hGeneration

omit [Cryptography] in
/-- The row of a stored submission is the one that its UID and its key lead to. -/
theorem lookup_of_stored {row : RequestRow}
    (hRow : database.request? request.requestId = some row)
    (hUid : row.requesterUid = request.requesterUid.asDb)
    (hKey : row.operationKey = request.operationKey.asStr) :
    Table.lookup idempotencyColumn
      (request.requesterUid.asDb, request.operationKey.asStr) database.requests =
        some row := by
  refine (Table.lookup_eq_some_iff
    database.constraints.requestsIdempotency).mpr ⟨Table.mem_of_lookup hRow, ?_⟩
  exact Prod.ext hUid hKey

theorem StoredSubmission.record (hSound : SoundDatabase database.toTables)
    (h : StoredSubmission request database.toTables) :
    ∃ state, requestState request.requestId database.toTables = some state ∧
      lookupIdempotency request.requesterUid request.operationKey
        database.toTables =
        .ok (some
          { inputDigest := inputDigest request.packageName
            summary := { requestId := request.requestId
                         requesterUid := request.requesterUid
                         state
                         generation := request.generation } }) := by
  obtain ⟨row, hRow, hUid, hKey, hDigest, hGeneration⟩ := h
  obtain ⟨record, hLookup, hRecord⟩ :=
    lookupIdempotency_of_row hSound (lookup_of_stored hRow hUid hKey)
  refine ⟨row.state, requestState_eq_some_iff.mpr ⟨row, hRow, rfl⟩, ?_⟩
  rw [hLookup]
  obtain ⟨digest, summary⟩ := record
  obtain ⟨requestId, uid, state, generation⟩ := summary
  have hFoundDigest : digest = inputDigest request.packageName :=
    Subtype.ext (hRecord.inputDigest.trans hDigest)
  have hFoundId : requestId = request.requestId :=
    PublicId.ext_iff'.mpr (hRecord.requestId.trans (Table.column_of_lookup hRow))
  have hFoundGeneration : generation = request.generation := by
    have hNat := hRecord.generation.trans hGeneration
    exact UInt64.toNat_inj.mp (Int.ofNat.inj hNat)
  have hFoundUid : uid = request.requesterUid := hRecord.requesterUid
  have hFoundState : state = row.state := hRecord.state
  rw [hFoundDigest, hFoundId, hFoundGeneration, hFoundUid, hFoundState]

end Submissions

/-! ### Submissions after any run -/

/-- `submit` through the handle of a store. -/
def BrokerStore.submit [Cryptography] (store : BrokerStore)
    (request : SubmitPackageInstall) (policy : PackageInstallPolicy) :
    Except BrokerError (SubmitOutcome × BrokerStore) :=
  (Broker.submit (Base64Url.encodeText store.deviceIdBytes.val) request policy
    store.database).map
      fun result => (result.1, { store with database := result.2 })

section Runs

variable [Cryptography] {store after : BrokerStore} {request : SubmitPackageInstall}
  {policy : PackageInstallPolicy}

theorem BrokerStore.submit_eq_ok {outcome : SubmitOutcome}
    (h : store.submit request policy = .ok (outcome, after)) :
    Broker.submit (Base64Url.encodeText store.deviceIdBytes.val) request policy
        store.database = .ok (outcome, after.database) ∧
      store.step (.submit request policy) = after := by
  obtain ⟨result, hSubmit, hSame⟩ := map_eq_ok_iff.mp h
  cases hSame
  refine ⟨hSubmit, ?_⟩
  have hCall : (Call.submit request policy).transaction store.deviceIdBytes
      (Snapshots.at store.database.toTables) store.database =
      .ok (store.deviceIdBytes, result.2) := by
    simp only [Call.transaction, run_bind_eq_ok_iff, run_pure_eq_ok_iff]
    exact ⟨result.1, result.2, hSubmit, trivial, rfl⟩
  simp only [BrokerStore.step, BrokerStore.call, hCall, Except.map]

theorem BrokerStore.submit_of_denied
    (hDeny : policy request.requesterUid request.packageName = .deny) :
    store.submit request policy = .error .policyDenied := by
  rw [BrokerStore.submit, Broker.submit_of_denied hDeny]
  rfl

theorem BrokerStore.submit_of_record {record : IdempotencyRecord}
    (hAllow : policy request.requesterUid request.packageName = .allow)
    (hRecord : lookupIdempotency request.requesterUid request.operationKey
      store.database.toTables = .ok (some record)) :
    store.submit request policy =
      if record.inputDigest = inputDigest request.packageName then
        .ok (.existing record.summary, store)
      else .error .idempotencyConflict := by
  rw [BrokerStore.submit, Broker.submit_of_record hAllow hRecord]
  by_cases hDigest : record.inputDigest = inputDigest request.packageName
  · rw [if_pos hDigest, if_pos hDigest]
    rfl
  · rw [if_neg hDigest, if_neg hDigest]
    rfl

theorem BrokerStore.step_of_rejected {fault : BrokerError}
    (h : store.submit request policy = .error fault) :
    store.step (.submit request policy) = store := by
  rcases store.step_cases (.submit request policy) with hSame | hDone
  · exact hSame
  · simp only [Call.transaction, run_bind_eq_ok_iff, run_pure_eq_ok_iff] at hDone
    obtain ⟨outcome, database, hSubmit, -, -⟩ := hDone
    rw [BrokerStore.submit, hSubmit] at h
    cases h

theorem BrokerStore.treatedAsRetry_submit
    (h : TreatedAsRetry (store.submit request policy)) :
    TreatedAsRetry (Broker.submit (Base64Url.encodeText store.deviceIdBytes.val)
      request policy store.database) := by
  rcases h with ⟨summary, after, hOk⟩ | hConflict
  · exact Or.inl ⟨summary, after.database, (BrokerStore.submit_eq_ok hOk).1⟩
  · refine Or.inr ?_
    unfold BrokerStore.submit at hConflict
    cases hSubmit : Broker.submit (Base64Url.encodeText store.deviceIdBytes.val)
        request policy store.database with
    | ok result =>
        rw [hSubmit] at hConflict
        cases hConflict
    | error fault =>
        rw [hSubmit] at hConflict
        cases hConflict
        rfl

/-- An answer that names a stored request names one of the same user. -/
theorem BrokerStore.existing_of_submit {summary : RequestSummary}
    (hSound : SoundDatabase store.database.toTables)
    (h : store.submit request policy = .ok (.existing summary, after))
    {row : RequestRow}
    (hRow : Table.lookup idempotencyColumn
      (request.requesterUid.asDb, request.operationKey.asStr)
      store.database.requests = some row) :
    summary.requestId.asStr = row.requestId ∧
      summary.requesterUid = request.requesterUid := by
  obtain ⟨record, hLookup, hRecord⟩ := lookupIdempotency_of_row hSound hRow
  cases hPolicy : policy request.requesterUid request.packageName with
  | deny =>
      rw [BrokerStore.submit_of_denied hPolicy] at h
      cases h
  | allow =>
      rw [BrokerStore.submit_of_record hPolicy hLookup] at h
      split at h
      · simp only [Except.ok.injEq, Prod.mk.injEq, SubmitOutcome.existing.injEq] at h
        rw [← h.1]
        exact ⟨hRecord.requestId, hRecord.requesterUid⟩
      · cases h

end Runs

/-- A submission of which the store has created a request stays known under its UID
and its operation key, whatever is called afterwards.  The same submission again is
answered by the request in its current state; another package under the key is a
conflict, unless the policy denies it; neither changes anything.  Another user's
submission under the key is a retry only of a request of that user. -/
theorem submissions_idempotent [Cryptography] (earlier later : List Call)
    (original : SubmitPackageInstall) (policy : PackageInstallPolicy)
    (created : RequestSummary) (after : BrokerStore)
    (hCreated : (run BrokerStore.step BrokerStore.empty earlier).submit original
      policy = .ok (.created created, after)) :
    let store := run BrokerStore.step BrokerStore.empty
      (earlier ++ .submit original policy :: later)
    ∃ state, requestState created.requestId store.database.toTables = some state ∧
      ∀ (other : SubmitPackageInstall) (rules : PackageInstallPolicy),
        other.operationKey = original.operationKey →
        (other.requesterUid = original.requesterUid →
          other.packageName = original.packageName →
          rules other.requesterUid other.packageName = .allow →
          store.submit other rules = .ok (.existing { created with state }, store) ∧
            store.step (.submit other rules) = store) ∧
        (other.requesterUid = original.requesterUid →
          other.packageName ≠ original.packageName →
          (inputDigest other.packageName = inputDigest original.packageName →
            other.packageName = original.packageName) →
          (rules other.requesterUid other.packageName = .allow →
            store.submit other rules = .error .idempotencyConflict) ∧
          (rules other.requesterUid other.packageName = .deny →
            store.submit other rules = .error .policyDenied) ∧
          store.step (.submit other rules) = store) ∧
        (other.requesterUid ≠ original.requesterUid →
          TreatedAsRetry (store.submit other rules) →
          ∃ own ∈ store.database.requests,
            own.requesterUid = other.requesterUid.asDb ∧
            own.operationKey = other.operationKey.asStr ∧
            own.requestId ≠ created.requestId.asStr ∧
            ∀ summary same,
              store.submit other rules = .ok (.existing summary, same) →
              summary.requestId.asStr = own.requestId ∧
              summary.requesterUid = other.requesterUid) := by
  intro store
  obtain ⟨hSubmit, hStep⟩ := BrokerStore.submit_eq_ok hCreated
  obtain ⟨hStored, rfl⟩ := storedSubmission_of_created hSubmit
  have hStore : store = run BrokerStore.step after later := by
    simp only [store, run_append, run_cons, hStep]
  have hSound : SoundDatabase store.database.toTables := BrokerStore.sound_of_run _
  have hKept : StoredSubmission original store.database.toTables := by
    rw [hStore]
    exact hStored.run later
  clear_value store
  obtain ⟨state, hState, hRecord⟩ := hKept.record hSound
  refine ⟨state, hState, ?_⟩
  intro other rules hKey
  refine ⟨?_, ?_, ?_⟩
  -- The stored digest decides between a retry and a conflict.
  · intro hUid hPackage hAllow
    rw [← hUid, ← hKey, ← hPackage] at hRecord
    have hAgain := BrokerStore.submit_of_record hAllow hRecord
    rw [if_pos rfl, hUid] at hAgain
    exact ⟨hAgain, (BrokerStore.submit_eq_ok hAgain).2⟩
  · intro hUid hPackage hInjective
    rw [← hUid, ← hKey] at hRecord
    have hDigest : inputDigest original.packageName ≠ inputDigest other.packageName :=
      fun hSame => hPackage (hInjective hSame.symm)
    have hConflict : rules other.requesterUid other.packageName = .allow →
        store.submit other rules = .error .idempotencyConflict := by
      intro hAllow
      rw [BrokerStore.submit_of_record hAllow hRecord, if_neg hDigest]
    refine ⟨hConflict, BrokerStore.submit_of_denied, ?_⟩
    cases hRules : rules other.requesterUid other.packageName with
    | allow => exact BrokerStore.step_of_rejected (hConflict hRules)
    | deny => exact BrokerStore.step_of_rejected (BrokerStore.submit_of_denied hRules)
  · intro hUid hRetry
    obtain ⟨own, hOwn⟩ := row_of_retry (BrokerStore.treatedAsRetry_submit hRetry)
    have hColumn := Table.column_of_lookup hOwn
    simp only [idempotencyColumn, Prod.mk.injEq] at hColumn
    refine ⟨own, Table.mem_of_lookup hOwn, hColumn.1, hColumn.2, ?_, ?_⟩
    · -- The row of the original submission has the UID of its own requester.
      intro hSame
      obtain ⟨row, hRow, hRowUid, -⟩ := hKept
      have hFound : store.database.request? original.requestId = some own :=
        (Table.lookup_eq_some_iff store.database.constraints.requestKey).mpr
          ⟨Table.mem_of_lookup hOwn, hSame⟩
      rw [hFound, Option.some.injEq] at hRow
      rw [← hRow, hColumn.1] at hRowUid
      exact hUid (RequesterUid.asDb_injective hRowUid)
    · intro summary same hExisting
      exact BrokerStore.existing_of_submit hSound hExisting hOwn

/-- The sample request with another generation, and another package under its key. -/
def sampleRetry : SubmitPackageInstall :=
  { sampleRequest with generation := 9 }

def otherPackage : SubmitPackageInstall :=
  { sampleRequest with packageName := ⟨"vim", by decide +kernel⟩ }

/-- A store in which the sample request was submitted and is pending by now. -/
def pendingStore [Cryptography] : BrokerStore :=
  run BrokerStore.step BrokerStore.empty ([] ++ .submit sampleRequest allowAll ::
    [.transitionNonterminal sampleRequest.requestId .planning .pending])

theorem sample_created :
    let _ : Cryptography := keyedHashCryptography
    ∃ after, BrokerStore.empty.submit sampleRequest allowAll =
      .ok (.created
        { requestId := sampleRequest.requestId
          requesterUid := sampleRequest.requesterUid
          state := .planning
          generation := sampleRequest.generation }, after) := by
  intro _
  have hOk : (BrokerStore.empty.submit sampleRequest allowAll).isOk = true := by
    decide +kernel
  cases hSubmit : BrokerStore.empty.submit sampleRequest allowAll with
  | error fault =>
      rw [hSubmit] at hOk
      cases hOk
  | ok result =>
      obtain ⟨outcome, after⟩ := result
      cases outcome with
      | existing summary =>
          have hNone : lookupIdempotency sampleRequest.requesterUid
              sampleRequest.operationKey BrokerStore.empty.database.toTables =
              .ok none := rfl
          exact absurd (BrokerStore.treatedAsRetry_submit
            (Or.inl ⟨summary, after, hSubmit⟩)) (submit_of_absent hNone)
      | created created =>
          have hCreated := (storedSubmission_of_created
            (BrokerStore.submit_eq_ok hSubmit).1).2
          exact ⟨after, by rw [hCreated]⟩

/-- The pending request answers its retry, and it keeps another package away. -/
theorem submissions_idempotent_sample :
    let _ : Cryptography := keyedHashCryptography
    pendingStore.submit sampleRetry allowAll =
        .ok (.existing
          { requestId := sampleRequest.requestId
            requesterUid := sampleRequest.requesterUid
            state := .pending
            generation := sampleRequest.generation }, pendingStore) ∧
      pendingStore.submit otherPackage allowAll = .error .idempotencyConflict := by
  intro _
  have hPending : requestState sampleRequest.requestId
      pendingStore.database.toTables = some .pending := by
    decide +kernel
  have hDigests : inputDigest otherPackage.packageName ≠
      inputDigest sampleRequest.packageName := by
    decide +kernel
  obtain ⟨after, hSubmit⟩ := sample_created
  have hSubmit : BrokerStore.empty.submit sampleRequest allowAll =
    .ok (.created _, after) := hSubmit
  obtain ⟨state, hState, hOthers⟩ := submissions_idempotent []
    [.transitionNonterminal sampleRequest.requestId .planning .pending]
    sampleRequest allowAll _ after hSubmit
  unfold pendingStore at hPending ⊢
  have hSame : state = .pending := Option.some.inj (hState.symm.trans hPending)
  subst hSame
  refine ⟨((hOthers sampleRetry allowAll rfl).1 rfl rfl rfl).1, ?_⟩
  exact ((hOthers otherPackage allowAll rfl).2.1 rfl (by decide)
    (fun h => absurd h hDigests)).1 rfl

/-- A policy that denies everything. -/
def denyAll : PackageInstallPolicy := fun _ _ => .deny

/-- The conflict is not reported when the policy denies the other package: a denied
submission is answered before its key is looked up. -/
theorem denied_package_no_conflict :
    let _ : Cryptography := keyedHashCryptography
    ¬ ∀ (earlier later : List Call) (original other : SubmitPackageInstall)
      (policy rules : PackageInstallPolicy) (created : RequestSummary)
      (after : BrokerStore),
      (run BrokerStore.step BrokerStore.empty earlier).submit original policy =
        .ok (.created created, after) →
      other.operationKey = original.operationKey →
      other.requesterUid = original.requesterUid →
      other.packageName ≠ original.packageName →
      inputDigest other.packageName ≠ inputDigest original.packageName →
      (run BrokerStore.step BrokerStore.empty
        (earlier ++ .submit original policy :: later)).submit other rules =
          .error .idempotencyConflict := by
  intro _ hClaim
  have hDigests : inputDigest otherPackage.packageName ≠
      inputDigest sampleRequest.packageName := by
    decide +kernel
  obtain ⟨after, hSubmit⟩ := sample_created
  have hConflict := hClaim [] [] sampleRequest otherPackage allowAll denyAll _ after
    hSubmit rfl rfl (by decide) hDigests
  rw [BrokerStore.submit_of_denied rfl] at hConflict
  cases hConflict

end Broker
end RootPermit
